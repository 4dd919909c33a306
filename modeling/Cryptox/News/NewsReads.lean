import Cryptox.News.CollectedNews

/-!
# Runs of collecting, and what is read after them

What holds after any run of calls, and what `readNews` shows there.
-/
namespace Cryptox.News

open Cryptox.Library
open Cryptox.Sentiment (Instant)

section Latest

/-- The latest analysis of a news item, if there is any. -/
def Latest (results : List Analysis) (newsId : String) : Option Analysis → Prop
  | none => ∀ analysis ∈ results, analysis.newsId ≠ newsId
  | some latest => ∃ place : Nat, results[place]? = some latest ∧ latest.newsId = newsId ∧
      ∀ (other : Nat) (analysis : Analysis), results[other]? = some analysis →
        analysis.newsId = newsId → analysis.analyzedAt.val < latest.analyzedAt.val ∨
          analysis.analyzedAt = latest.analyzedAt ∧ other ≤ place

instance : Std.TransCmp latestFirst :=
  inferInstanceAs (Std.TransCmp (compareLex _ _))

theorem latestFirst_ne_gt {latest other : Analysis × Nat} (h : latestFirst latest other ≠ .gt) :
    other.1.analyzedAt.val < latest.1.analyzedAt.val ∨
      other.1.analyzedAt = latest.1.analyzedAt ∧ other.2 ≤ latest.2 := by
  have h : (compare other.1.analyzedAt.val latest.1.analyzedAt.val).then
      (compare other.2 latest.2) ≠ .gt := h
  cases htime : compare other.1.analyzedAt.val latest.1.analyzedAt.val with
  | lt => exact .inl (compare_lt_iff_lt.mp htime)
  | eq =>
    rw [htime] at h
    exact .inr ⟨Subtype.ext (compare_eq_iff_eq.mp htime), compare_le_iff_le.mp h⟩
  | gt =>
    rw [htime] at h
    exact absurd rfl h

/-- What is read is the latest analysis of the item, if there is one. -/
theorem latest_readLatestForNews (results : List Analysis) (newsId : String) :
    Latest results newsId (readLatestForNews results newsId) := by
  have hperm := sortWith_perm latestFirst
    (results.zipIdx.filter fun row : Analysis × Nat => row.1.newsId = newsId)
  have hsorted := sortWith_pairwise latestFirst
    (results.zipIdx.filter fun row : Analysis × Nat => row.1.newsId = newsId)
  have hlisted : ∀ place analysis, results[place]? = some analysis → analysis.newsId = newsId →
      (analysis, place) ∈ sortWith latestFirst
        (results.zipIdx.filter fun row : Analysis × Nat => row.1.newsId = newsId) := by
    intro place analysis hget hid
    refine hperm.mem_iff.mpr (List.mem_filter.mpr ⟨?_, by simpa using hid⟩)
    exact List.mk_mem_zipIdx_iff_getElem?.mpr hget
  unfold readLatestForNews
  cases hsort : sortWith latestFirst
      (results.zipIdx.filter fun row : Analysis × Nat => row.1.newsId = newsId) with
  | nil =>
    intro analysis hanalysis hid
    obtain ⟨place, hget⟩ := List.mem_iff_getElem?.mp hanalysis
    have hmem := hlisted place analysis hget hid
    rw [hsort] at hmem
    cases hmem
  | cons first rest =>
    have hfirst : first ∈ results.zipIdx.filter fun row : Analysis × Nat => row.1.newsId = newsId := by
      rw [← hperm.mem_iff, hsort]
      exact List.mem_cons_self
    obtain ⟨hplace, hid⟩ := List.mem_filter.mp hfirst
    refine ⟨first.2, List.mk_mem_zipIdx_iff_getElem?.mp hplace, by simpa using hid, ?_⟩
    intro other analysis hget hother
    have hmem := hlisted other analysis hget hother
    rw [hsort] at hmem hsorted
    rcases List.mem_cons.mp hmem with heq | hlater
    · rw [← heq]
      exact .inr ⟨rfl, le_rfl⟩
    · exact latestFirst_ne_gt ((List.pairwise_cons.mp hsorted).1 _ hlater)

end Latest

section Reading

variable {ports : NewsPorts} {storage : NewsStorage} {w : NewsWorld storage}

/-- The rows that are read for a user, or without one. -/
def shownTo (userId : Option String) (row : NewsRow) : Bool :=
  userId.isNone || row.userId == userId

theorem readAll_eq {userId : Option String} (hnamed : Named userId) :
    storage.readAll w.news userId = (w.rows.filter (shownTo userId)).map NewsRow.item := by
  cases storage with
  | inMemory =>
    refine congrArg (List.map NewsRow.item) (List.filter_congr fun row _ => ?_)
    cases userId with
    | none => rfl
    | some user =>
      have huser := hnamed user rfl
      simp only [isUserId, Bool.and_eq_true, Bool.not_eq_true'] at huser
      simp only [shownTo, huser.1, Option.isNone_some]
  | postgres =>
    simp only [NewsStorage.readAll, PostgresNews.readAll, owner_of_named hnamed]
    refine congrArg (List.map NewsRow.item) (List.filter_congr fun row _ => ?_)
    cases userId with
    | none => rfl
    | some user => rfl

/-- Stored items pass the checks that reading makes again. -/
theorem mapM_validateNewsItem {items : List NewsItem} (h : ∀ item ∈ items, item.Valid ports) :
    items.mapM (validateNewsItem ports) = .ok items := by
  induction items with
  | nil => rfl
  | cons item items ih =>
    rw [List.mapM_cons, validateNewsItem_eq_ok.mpr ⟨h item List.mem_cons_self, rfl⟩, ok_bind,
      ih fun other hother => h other (List.mem_cons_of_mem _ hother), ok_bind]
    rfl

/-- Everything that was collected for the user, in order, and with its latest analysis. -/
structure ReadsAll (ports : NewsPorts) (w : NewsWorld storage) (userId : Option String)
    (unreadable : String → Bool) (reads : List NewsReadItem) : Prop where
  shown : (reads.map NewsReadItem.item).Perm ((w.rows.filter (shownTo userId)).map NewsRow.item)
  sorted : (reads.map NewsReadItem.item).Pairwise fun left right =>
    publishedFirst ports left right ≠ .gt
  recent : ports.Chronological → (reads.map NewsReadItem.item).Pairwise fun left right =>
    ∀ later ∈ ports.parse left.publishedAt, ∀ earlier ∈ ports.parse right.publishedAt,
      earlier.val ≤ later.val
  unread : ∀ read ∈ reads, unreadable read.item.id = true → read.sentiment = none
  latest : ∀ read ∈ reads, unreadable read.item.id = false →
    Latest w.results read.item.id read.sentiment
  own : userId ≠ none → ∀ read ∈ reads, ∃ callId call, w.calls.get? callId = some call ∧
    call.userId = userId ∧ call.item.url = read.item.url
  complete : ∀ callId call, w.calls.get? callId = some call → call.phase = .ended (.ok ()) →
    userId = none ∨ call.userId = userId → ∃ read ∈ reads, read.item.url = call.item.url

/-- Sorted items are in the order of their instants where the collation is. -/
theorem published_le (h : ports.Chronological) {left right : NewsItem} {later earlier : Instant}
    (hlater : later ∈ ports.parse left.publishedAt)
    (hearlier : earlier ∈ ports.parse right.publishedAt)
    (hsorted : publishedFirst ports left right ≠ .gt) : earlier.val ≤ later.val := by
  have htime : publishedFirst ports left right = (compare earlier.val later.val).then
      (ports.localeCompare left.id right.id) := by
    rw [← h _ _ _ hearlier _ hlater]
    rfl
  by_contra hlt
  rw [htime, compare_gt_iff_gt.mpr (not_le.mp hlt)] at hsorted
  exact hsorted rfl

theorem readNews_of_inv [Std.TransCmp ports.localeCompare] (h : w.Inv ports)
    {userId : Option String} (hnamed : Named userId) (unreadable : String → Bool) :
    ∃ reads, readNews ports w userId unreadable = .ok reads ∧
      ReadsAll ports w userId unreadable reads := by
  have hvalid : ∀ item ∈ (w.rows.filter (shownTo userId)).map NewsRow.item, item.Valid ports := by
    intro item hitem
    obtain ⟨row, hrow, rfl⟩ := List.mem_map.mp hitem
    exact h.rows.valid row (List.mem_filter.mp hrow).1
  have htrans : Std.TransCmp (publishedFirst ports) := inferInstanceAs (Std.TransCmp (compareLex _ _))
  have hperm := sortWith_perm (publishedFirst ports) ((w.rows.filter (shownTo userId)).map NewsRow.item)
  have hitems : ∀ items : List NewsItem,
      (items.map (withSentiment w.results unreadable)).map NewsReadItem.item = items := by
    intro items
    rw [List.map_map]
    exact List.map_id _
  refine ⟨(sortWith (publishedFirst ports) ((w.rows.filter (shownTo userId)).map NewsRow.item)).map
    (withSentiment w.results unreadable), ?_, ?_⟩
  · rw [readNews, readAll_eq hnamed, mapM_validateNewsItem hvalid, ok_bind]
    rfl
  constructor
  case shown =>
    rw [hitems]
    exact hperm
  case sorted =>
    rw [hitems]
    exact sortWith_pairwise (publishedFirst ports) _
  case recent =>
    intro hchronological
    rw [hitems]
    refine (sortWith_pairwise (publishedFirst ports) _).imp fun {left right} hsorted => ?_
    exact fun later hlater earlier hearlier =>
      published_le hchronological hlater hearlier hsorted
  case unread =>
    intro read hread hunreadable
    obtain ⟨item, -, rfl⟩ := List.mem_map.mp hread
    exact if_pos hunreadable
  case latest =>
    intro read hread hreadable
    obtain ⟨item, -, rfl⟩ := List.mem_map.mp hread
    have hsentiment : (withSentiment w.results unreadable item).sentiment =
        readLatestForNews w.results item.id := if_neg (Bool.eq_false_iff.mp hreadable)
    rw [hsentiment]
    exact latest_readLatestForNews w.results item.id
  case own =>
    intro huser read hread
    obtain ⟨item, hitem, rfl⟩ := List.mem_map.mp hread
    obtain ⟨row, hrow, rfl⟩ := List.mem_map.mp (hperm.mem_iff.mp hitem)
    obtain ⟨hmem, hshown⟩ := List.mem_filter.mp hrow
    obtain ⟨callId, call, hget, hcaller, hurl⟩ := h.collected row hmem
    have hsame : row.userId = userId := by
      rw [shownTo, Bool.or_eq_true, Option.isNone_iff_eq_none, beq_iff_eq] at hshown
      exact hshown.resolve_left huser
    exact ⟨callId, call, hget, hcaller.trans hsame, hurl⟩
  case complete =>
    intro callId call hget hended huser
    have hfits := h.calls callId call hget
    rw [NewsWorld.Fits, hended] at hfits
    obtain ⟨row, hrow, hcaller, hurl⟩ := hfits
    have hshown : shownTo userId row = true := by
      rw [shownTo, Bool.or_eq_true, Option.isNone_iff_eq_none, beq_iff_eq]
      exact huser.imp id hcaller.trans
    have hitem : row.item ∈ (w.rows.filter (shownTo userId)).map NewsRow.item :=
      List.mem_map_of_mem (List.mem_filter.mpr ⟨hrow, hshown⟩)
    exact ⟨_, List.mem_map_of_mem (hperm.mem_iff.mpr hitem), hurl⟩

end Reading

section Results

variable {ports : NewsPorts} {storage : NewsStorage} {steps : List CollectStep}

open NewsWorld

/-- Valid rows, one for a user and a URL, each from a call of its user; every call that ended well has
its row; and analyses of rows, one for a news item and a model. -/
structure CollectedNews (ports : NewsPorts) (w : NewsWorld storage) : Prop where
  valid : ∀ row ∈ w.rows, validateNewsItem ports row.item = .ok row.item
  once : w.rows.Pairwise fun row other =>
    row.userId ≠ none → row.userId = other.userId → row.item.url ≠ other.item.url
  ids : storage = .postgres → (w.rows.map NewsRow.id).Nodup
  collected : ∀ row ∈ w.rows, ∃ callId call, w.calls.get? callId = some call ∧
    call.userId = row.userId ∧ call.item.url = row.item.url
  held : ∀ callId call, w.calls.get? callId = some call → call.phase = .ended (.ok ()) →
    w.Holds call
  refused : ∀ callId call exception, w.calls.get? callId = some call →
    call.phase = .ended (.error exception) →
      exception = persistenceFailed ∨ validateNewsItem ports call.item = .error exception
  identities : (w.results.map Analysis.identity).Nodup
  results : ∀ analysis ∈ w.results, |analysis.score.toRat| ≤ 1 ∧ w.HasId analysis.newsId

theorem inv_run {w : NewsWorld storage} (h : w.Inv ports)
    (hlegal : (system ports storage).Legal (fun _ _ => True) w steps) :
    ((system ports storage).run w steps).Inv ports ∧
      Keeps w ((system ports storage).run w steps) := by
  induction steps generalizing w with
  | nil => exact ⟨h, .refl w⟩
  | cons step steps ih =>
    obtain ⟨hstep, hkeeps⟩ := inv_next w step h hlegal.1.1
    obtain ⟨hrun, hlater⟩ := ih hstep hlegal.2
    exact ⟨hrun, hkeeps.trans hlater⟩

theorem collectedNews {w : NewsWorld storage} (h : w.Inv ports) : CollectedNews ports w where
  valid row hrow := validateNewsItem_eq_ok.mpr ⟨h.rows.valid row hrow, rfl⟩
  once := h.rows.once
  ids := h.rows.ids
  collected := h.collected
  held callId call hget hended := by
    have hfits := h.calls callId call hget
    rwa [Fits, hended] at hfits
  refused callId call exception hget hended := by
    have hfits := h.calls callId call hget
    rwa [Fits, hended] at hfits
  identities := h.identities
  results := h.results

/-- In every run of calls, over either storage, collected news are sound and stay. -/
theorem collect_keeps (ports : NewsPorts) (storage : NewsStorage) (before later : List CollectStep)
    (h : (system ports storage).Legal (fun _ _ => True) (.start storage) (before ++ later)) :
    CollectedNews ports ((system ports storage).run (.start storage) before) ∧
      Keeps ((system ports storage).run (.start storage) before)
        ((system ports storage).run (.start storage) (before ++ later)) := by
  obtain ⟨hbefore, hlater⟩ := GuardedSystem.legal_append.mp h
  obtain ⟨hinv, -⟩ := inv_run Inv.start hbefore
  refine ⟨collectedNews hinv, ?_⟩
  rw [GuardedSystem.run_append]
  exact (inv_run hinv hlater).2

/-- After every run reading answers, with all that was collected for the user and nothing else. -/
theorem readNews_reads_all (ports : NewsPorts) [Std.TransCmp ports.localeCompare]
    (storage : NewsStorage) (steps : List CollectStep)
    (h : (system ports storage).Legal (fun _ _ => True) (.start storage) steps)
    (userId : Option String) (hnamed : Named userId) (unreadable : String → Bool) :
    ∃ reads, readNews ports ((system ports storage).run (.start storage) steps) userId unreadable =
        .ok reads ∧
      ReadsAll ports ((system ports storage).run (.start storage) steps) userId unreadable reads :=
  readNews_of_inv (inv_run Inv.start h).1 hnamed unreadable

end Results

namespace Sample

/-- Reads two instants of 2026 and no other text. -/
def newsPorts : NewsPorts where
  parse text :=
    if text = "2026-01-01T00:00:00.000Z" then some ⟨1767225600000, by decide⟩
    else if text = "2026-01-02T00:00:00.000Z" then some ⟨1767312000000, by decide⟩
    else none
  isHttpUrl url := "https://".toList.isPrefixOf url.toList
  localeCompare := compare

instance : Std.TransCmp newsPorts.localeCompare :=
  inferInstanceAs (Std.TransCmp (@compare String _))

theorem newsPorts_parse {text : String} {instant : Instant}
    (h : instant ∈ newsPorts.parse text) :
    text = "2026-01-01T00:00:00.000Z" ∧ instant.val = 1767225600000 ∨
      text = "2026-01-02T00:00:00.000Z" ∧ instant.val = 1767312000000 := by
  simp only [newsPorts] at h
  split at h
  next htext =>
    cases h
    exact .inl ⟨htext, rfl⟩
  next =>
    split at h
    next htext =>
      cases h
      exact .inr ⟨htext, rfl⟩
    next => cases h

theorem newsPorts_chronological : newsPorts.Chronological := by
  intro left right earlier hearlier later hlater
  rcases newsPorts_parse hearlier with ⟨rfl, hleft⟩ | ⟨rfl, hleft⟩ <;>
    rcases newsPorts_parse hlater with ⟨rfl, hright⟩ | ⟨rfl, hright⟩ <;>
    rw [hleft, hright] <;> decide

def article (title : String) : NewsItem where
  id := "a1"
  title
  content := "Inflows grew."
  source := "RSS"
  publishedAt := "2026-01-01T00:00:00.000Z"
  crawledAt := "2026-01-01T00:00:00.000Z"
  relatedCoins := ["BTC"]
  url := "https://news.test/a1"

def nextArticle : NewsItem :=
  { article "Outflows" with
    id := "a2", publishedAt := "2026-01-02T00:00:00.000Z", url := "https://news.test/a2" }

def analysisAnswer : Sentiment.SentimentResult where
  newsId := "a1"
  label := "POSITIVE"
  score := .finite (.ofInt 1 abs_one_lt)
  modelName := "LOCAL_LEXICON"
  modelVersion := "1.0.0"
  analyzedAt := "2026-01-01T00:00:00.000Z"

/-- Two calls of a user collect one article, a third brings one without a title, and the first
analysis is recorded while the second fails. Then the next article comes in, for another user too. -/
def collectedTwice : List CollectStep :=
  [.collect 1 (article "Rally") (some "u-1"), .collect 2 (article "Rally, updated") (some "u-1"),
    .collect 3 (article "") (some "u-1"), .insert 1 .done, .insert 2 .done,
    .analyzed 1 (.ok analysisAnswer), .analyzed 2 (.error "TIMEOUT"), .record 1 .done,
    .collect 4 nextArticle (some "u-1"), .collect 5 nextArticle (some "u-2"), .insert 5 .done,
    .insert 4 .done]

theorem admits_collectedTwice (storage : NewsStorage) :
    (NewsWorld.system newsPorts storage).Legal (fun _ _ => True) (.start storage) collectedTwice := by
  have hnamed : ∀ name : String, isUserId name = true →
      ∀ user ∈ some name, isUserId user = true := by
    rintro name hname user huser
    cases huser
    exact hname
  have hfirst := hnamed "u-1" (by decide)
  have hsecond := hnamed "u-2" (by decide)
  cases storage <;>
  exact ⟨⟨⟨rfl, hfirst⟩, trivial⟩, ⟨⟨rfl, hfirst⟩, trivial⟩, ⟨⟨rfl, hfirst⟩, trivial⟩,
    ⟨⟨_, _, rfl, rfl⟩, trivial⟩, ⟨⟨_, _, rfl, rfl⟩, trivial⟩, ⟨⟨_, _, rfl, rfl⟩, trivial⟩,
    ⟨⟨_, _, rfl, rfl⟩, trivial⟩, ⟨⟨_, _, rfl, rfl⟩, trivial⟩, ⟨⟨rfl, hfirst⟩, trivial⟩,
    ⟨⟨rfl, hsecond⟩, trivial⟩, ⟨⟨_, _, rfl, rfl⟩, trivial⟩, ⟨⟨_, _, rfl, rfl⟩, trivial⟩, trivial⟩

end Sample

theorem collect_keeps_twice :
    CollectedNews Sample.newsPorts ((NewsWorld.system Sample.newsPorts .postgres).run
        (.start .postgres) (Sample.collectedTwice.take 4)) ∧
      NewsWorld.Keeps ((NewsWorld.system Sample.newsPorts .postgres).run (.start .postgres)
          (Sample.collectedTwice.take 4))
        ((NewsWorld.system Sample.newsPorts .postgres).run (.start .postgres)
          (Sample.collectedTwice.take 4 ++ Sample.collectedTwice.drop 4)) :=
  collect_keeps Sample.newsPorts .postgres _ _ (Sample.admits_collectedTwice .postgres)

/-- Both articles of the first user are shown, the later one first. -/
theorem readNews_reads_all_twice :
    ∃ reads, readNews Sample.newsPorts ((NewsWorld.system Sample.newsPorts .inMemory).run
          (.start .inMemory) Sample.collectedTwice) (some "u-1") (fun _ => false) = .ok reads ∧
      (reads.map NewsReadItem.item).Perm [Sample.article "Rally", Sample.nextArticle] ∧
      (reads.map NewsReadItem.item).Pairwise (fun left right =>
        ∀ later ∈ Sample.newsPorts.parse left.publishedAt,
          ∀ earlier ∈ Sample.newsPorts.parse right.publishedAt, earlier.val ≤ later.val) := by
  obtain ⟨reads, hreads, hall⟩ := readNews_reads_all Sample.newsPorts .inMemory _
    (Sample.admits_collectedTwice .inMemory) (some "u-1") (fun user huser => by cases huser; decide)
    fun _ => false
  exact ⟨reads, hreads, hall.shown, hall.recent Sample.newsPorts_chronological⟩

end Cryptox.News
