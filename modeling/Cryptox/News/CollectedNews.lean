import Cryptox.News.Collecting

/-!
# What collecting keeps

News that were collected stay, one item for a user and a URL, and an analysis belongs to news that
are there. Reading shows a user all that was collected for them, and nothing else.
-/
namespace Cryptox.News

open Cryptox.Backtesting (isJsSpace)
open Cryptox.Library
open Cryptox.Sentiment (validateSentimentInput validateSentimentResult)
open Cryptox.Strategy (trim)

section UserIds

def Named (userId : Option String) : Prop := ∀ user ∈ userId, isUserId user = true

theorem userIdChar_ne_bar {c : Char} (h : (c.isAlphanum || c == '-') = true) : c ≠ '|' := by
  rintro rfl
  revert h
  decide

/-- A user id has nothing that trimming takes off. -/
theorem not_isJsSpace_of_userIdChar {c : Char} (h : (c.isAlphanum || c == '-') = true) :
    isJsSpace c = false := by
  have hrange : 45 = c.toNat ∨ 48 ≤ c.toNat ∧ c.toNat ≤ 122 := by
    rcases Bool.or_eq_true_iff.mp h with hletter | hdash
    · have hcases : (c.isUpper = true ∨ c.isLower = true) ∨ c.isDigit = true :=
        (Bool.or_eq_true_iff.mp hletter).imp_left Bool.or_eq_true_iff.mp
      rcases hcases with (hupper | hlower) | hdigit
      · have hval : 'A'.val ≤ c.val ∧ c.val ≤ 'Z'.val := of_decide_eq_true hupper
        rw [UInt32.le_iff_toNat_le, UInt32.le_iff_toNat_le] at hval
        exact .inr ⟨le_trans (by decide) hval.1, le_trans hval.2 (by decide)⟩
      · have hval : decide ('a'.val ≤ c.val) = true ∧ decide (c.val ≤ 'z'.val) = true :=
          Bool.and_eq_true_iff.mp hlower
        rw [decide_eq_true_eq, decide_eq_true_eq, UInt32.le_iff_toNat_le,
          UInt32.le_iff_toNat_le] at hval
        exact .inr ⟨le_trans (by decide) hval.1, le_trans hval.2 (by decide)⟩
      · have hval : decide ('0'.val ≤ c.val) = true ∧ decide (c.val ≤ '9'.val) = true :=
          Bool.and_eq_true_iff.mp hdigit
        rw [decide_eq_true_eq, decide_eq_true_eq, UInt32.le_iff_toNat_le,
          UInt32.le_iff_toNat_le] at hval
        exact .inr ⟨hval.1, le_trans hval.2 (by decide)⟩
    · rw [beq_iff_eq.mp hdash]
      exact .inl rfl
  have hlisted : [9, 10, 11, 12, 13, 32, 160, 5760, 8232, 8233, 8239, 8287, 12288, 65279].contains
      c.toNat = false := by
    simp
    omega
  rw [isJsSpace, hlisted, Bool.false_or]
  simp
  omega

theorem trim_of_forall {text : String} (h : ∀ c ∈ text.toList, isJsSpace c = false) :
    trim text = text := by
  have hnone : ∀ chars : List Char, (∀ c ∈ chars, isJsSpace c = false) →
      chars.dropWhile isJsSpace = chars := by
    intro chars hchars
    cases chars with
    | nil => rfl
    | cons c chars => exact List.dropWhile_cons_of_neg (by simp [hchars c List.mem_cons_self])
  rw [trim, hnone _ h, hnone _ (fun c hc => h c (List.mem_reverse.mp hc)), List.reverse_reverse,
    String.ofList_toList]

theorem owner_of_named {userId : Option String} (h : Named userId) : owner userId = userId := by
  cases userId with
  | none => rfl
  | some user =>
    have huser := h user rfl
    simp only [isUserId, Bool.and_eq_true, Bool.not_eq_true', List.all_eq_true] at huser
    have htrim : trim user = user :=
      trim_of_forall fun c hc => not_isJsSpace_of_userIdChar (huser.2 c hc)
    simp only [owner, Option.bind_some, htrim, huser.1, Bool.false_eq_true, if_false]

theorem not_mem_bar {userId : Option String} (h : Named userId) : '|' ∉ (userId.getD "").toList := by
  cases userId with
  | none => simp
  | some user =>
    have huser := h user rfl
    simp only [isUserId, Bool.and_eq_true, List.all_eq_true] at huser
    exact fun hmem => userIdChar_ne_bar (huser.2 _ hmem) rfl

theorem getD_inj {first second : Option String} (hfirst : Named first) (hsecond : Named second)
    (h : first.getD "" = second.getD "") : first = second := by
  have hnonempty : ∀ user, isUserId user = true → user ≠ "" := by
    rintro _ huser rfl
    revert huser
    decide
  cases first with
  | none =>
    cases second with
    | none => rfl
    | some user => exact absurd h.symm (hnonempty user (hsecond user rfl))
  | some user =>
    cases second with
    | none => exact absurd h (hnonempty user (hfirst user rfl))
    | some other => exact congrArg some h

/-- What stands before the first bar of a text, and what stands after it. -/
theorem cut_at_bar {before : List Char} (h : '|' ∉ before) (later : List Char) :
    (before ++ '|' :: later).takeWhile (· != '|') = before ∧
      (before ++ '|' :: later).dropWhile (· != '|') = '|' :: later := by
  have hpos : ∀ c ∈ before, (c != '|') = true := by
    intro c hc
    have hne : c ≠ '|' := fun heq => h (heq ▸ hc)
    simpa using hne
  rw [List.takeWhile_append_of_pos hpos, List.dropWhile_append_of_pos hpos]
  exact ⟨List.append_nil before, rfl⟩

/-- The key of the in-memory repository tells user and URL. -/
theorem NewsRow.key_inj {first second : NewsRow} (hfirst : Named first.userId)
    (hsecond : Named second.userId) (h : first.key = second.key) :
    first.userId = second.userId ∧ first.item.url = second.item.url := by
  have hlists := congrArg String.toList h
  simp only [NewsRow.key, String.toList_append] at hlists
  have hbar : "|".toList = ['|'] := rfl
  rw [hbar, List.append_assoc, List.append_assoc, List.singleton_append,
    List.singleton_append] at hlists
  obtain ⟨huser, hurl⟩ := cut_at_bar (not_mem_bar hfirst) first.item.url.toList
  obtain ⟨huser', hurl'⟩ := cut_at_bar (not_mem_bar hsecond) second.item.url.toList
  rw [hlists, huser'] at huser
  rw [hlists, hurl', List.cons_inj_right] at hurl
  exact ⟨getD_inj hfirst hsecond (String.toList_inj.mp huser.symm), String.toList_inj.mp hurl.symm⟩

end UserIds

section Rows

variable {ports : NewsPorts} {storage : NewsStorage}

/-- What the checks of an item ask. -/
structure NewsItem.Valid (ports : NewsPorts) (item : NewsItem) : Prop where
  texts : [item.id, item.title, item.content, item.source, item.url].all Sentiment.requiredText = true
  url : ports.isHttpUrl item.url = true
  published : (ports.parse item.publishedAt).isSome
  crawled : (ports.parse item.crawledAt).isSome
  coins : item.relatedCoins.all Sentiment.requiredText = true

/-- The checks pass valid items only, and leave them as they are. -/
theorem validateNewsItem_eq_ok {item checked : NewsItem} :
    validateNewsItem ports item = .ok checked ↔ item.Valid ports ∧ item = checked := by
  simp only [validateNewsItem, bind_eq_ok, pure_eq_ok, throwIf_eq_ok, Bool.not_eq_false',
    Bool.or_eq_false_iff,
    Option.isNone_eq_false_iff]
  constructor
  · rintro ⟨-, htexts, -, hurl, -, ⟨⟨hpublished, hcrawled⟩, hcoins⟩, rfl⟩
    exact ⟨⟨htexts, hurl, hpublished, hcrawled, hcoins⟩, rfl⟩
  · rintro ⟨h, rfl⟩
    exact ⟨(), h.texts, (), h.url, (), ⟨⟨h.published, h.crawled⟩, h.coins⟩, rfl⟩

/-- An item that has passed its checks passes those of the analysis. -/
theorem NewsItem.Valid.analyzable {item : NewsItem} (h : item.Valid ports) :
    ∃ news, validateSentimentInput ports.parse (toSentimentInput item) = .ok news ∧
      news.newsId = item.id := by
  obtain ⟨publishedAt, hparse⟩ := Option.isSome_iff_exists.mp h.published
  have htexts : [item.id, item.title, item.content, item.source].all Sentiment.requiredText = true := by
    have hall := h.texts
    simp only [List.all_cons, List.all_nil, Bool.and_true, Bool.and_eq_true] at hall ⊢
    exact ⟨hall.1, hall.2.1, hall.2.2.1, hall.2.2.2.1⟩
  refine ⟨⟨item.id, publishedAt, item.relatedCoins⟩, ?_, rfl⟩
  simp only [validateSentimentInput, toSentimentInput, htexts, Bool.not_true, throwIf_false, ok_bind,
    hparse, h.coins]
  rfl

theorem NewsItem.Valid.refreshed {row : NewsRow} {item : NewsItem} (h : row.item.Valid ports)
    (hitem : item.Valid ports) : (row.refreshed item).item.Valid ports := by
  have hrow := h.texts
  have hnew := hitem.texts
  simp only [List.all_cons, List.all_nil, Bool.and_true, Bool.and_eq_true] at hrow hnew
  refine ⟨?_, h.url, h.published, hitem.crawled, hitem.coins⟩
  simp only [NewsRow.refreshed, List.all_cons, List.all_nil, Bool.and_true, Bool.and_eq_true]
  exact ⟨hrow.1, hnew.2.1, hnew.2.2.1, hrow.2.2.2.1, hrow.2.2.2.2⟩

/-- An analysis that passes its checks is of the item that was asked about. -/
theorem newsId_of_validateSentimentResult {result : Sentiment.SentimentResult}
    {news : Sentiment.NewsItem} {stored : Sentiment.StoredResult}
    (h : validateSentimentResult ports.parse result news = .ok stored) :
    stored.news.newsId = news.newsId := by
  simp only [validateSentimentResult, bind_eq_ok] at h
  obtain ⟨_, -, h⟩ := h
  split at h
  next =>
    split at h
    next =>
      split at h
      next =>
        simp only [bind_eq_ok, pure_eq_ok] at h
        obtain ⟨_, -, rfl⟩ := h
        rfl
      next => cases h
    next => cases h
  next => cases h

/-- What a row may become: the database writes what a later item says. -/
def Refreshed (storage : NewsStorage) (row later : NewsRow) : Prop :=
  later = row ∨ storage = .postgres ∧ ∃ item, later = row.refreshed item

namespace Refreshed

variable {row later last : NewsRow}

theorem refl (row : NewsRow) : Refreshed storage row row := .inl rfl

theorem trans (h : Refreshed storage row later) (h' : Refreshed storage later last) :
    Refreshed storage row last := by
  rcases h with rfl | ⟨hpostgres, item, rfl⟩
  · exact h'
  · rcases h' with rfl | ⟨-, other, rfl⟩
    · exact .inr ⟨hpostgres, item, rfl⟩
    · exact .inr ⟨hpostgres, other, rfl⟩

theorem userId (h : Refreshed storage row later) : later.userId = row.userId := by
  rcases h with rfl | ⟨-, item, rfl⟩ <;> rfl

theorem url (h : Refreshed storage row later) : later.item.url = row.item.url := by
  rcases h with rfl | ⟨-, item, rfl⟩ <;> rfl

theorem id (h : Refreshed storage row later) : later.id = row.id := by
  rcases h with rfl | ⟨-, item, rfl⟩ <;> rfl

end Refreshed

/-- Valid rows, one for a user and a URL, and in the database one for an id. -/
structure SoundRows (ports : NewsPorts) (storage : NewsStorage) (rows : List NewsRow) : Prop where
  valid : ∀ row ∈ rows, row.item.Valid ports
  named : ∀ row ∈ rows, Named row.userId
  once : rows.Pairwise fun row other =>
    row.userId ≠ none → row.userId = other.userId → row.item.url ≠ other.item.url
  ids : storage = .postgres → (rows.map NewsRow.id).Nodup

/-- What an insertion does: the item is new, or a row of its user and URL is there already. -/
inductive Inserted (storage : NewsStorage) (before after : List NewsRow) (item : NewsItem)
    (userId : Option String) (persisted : NewsItem) : Prop where
  | added (hnew : ∀ row ∈ before, userId ≠ none → row.userId = userId → row.item.url ≠ item.url)
      (hid : storage = .postgres → ∀ row ∈ before, row.id ≠ item.id)
      (hafter : after = before ++ [⟨item, userId⟩]) (hpersisted : persisted = item)
  | found (row : NewsRow) (rewrite : NewsRow → NewsRow) (hrow : row ∈ before)
      (huser : row.userId = userId) (hurl : row.item.url = item.url)
      (hrewrite : ∀ other ∈ before, rewrite other = other ∨
        storage = .postgres ∧ rewrite other = other.refreshed item)
      (hafter : after = before.map rewrite) (hpersisted : persisted = (rewrite row).item)

/-- The in-memory repository answers an item of the same user and URL with the stored one. -/
theorem inserted_memory {news : MemoryNews} (h : SoundRows ports .inMemory news.rows)
    {item : NewsItem} {userId : Option String} (hnamed : Named userId) :
    Inserted .inMemory news.rows (news.insert item userId).1.rows item userId
      (news.insert item userId).2 := by
  unfold MemoryNews.insert
  split
  next existing hget =>
    have hmem := Table.mem_rows_of_get? hget
    obtain ⟨huser, hurl⟩ := NewsRow.key_inj (h.named existing hmem) hnamed (Table.key_of_get? hget)
    exact .found existing id hmem huser hurl (fun _ _ => .inl rfl) (List.map_id _).symm rfl
  next hnone =>
    refine .added (fun row hrow _ huser hurl => ?_) nofun (Table.rows_put_of_none hnone) rfl
    have hkey : row.key = NewsRow.key ⟨item, userId⟩ := by
      rw [NewsRow.key, NewsRow.key, huser, hurl]
    have hget := Table.get?_of_mem_rows hrow
    rw [hkey, hnone] at hget
    cases hget

/-- The database refreshes the row of the same user and URL, and refuses an id in use. -/
theorem inserted_postgres {news news' : PostgresNews} {item persisted : NewsItem}
    {userId : Option String} (hnamed : Named userId)
    (hinsert : PostgresNews.insert news item userId = .ok (news', persisted)) :
    Inserted .postgres news.rows news'.rows item userId persisted := by
  simp only [PostgresNews.insert, owner_of_named hnamed] at hinsert
  split at hinsert
  next row hfound =>
    cases hinsert
    have hmem := List.mem_of_find?_eq_some hfound
    have hmatches := List.find?_some hfound
    simp only [Bool.and_eq_true, beq_iff_eq] at hmatches
    have hget : news.get? (row.refreshed item).id = some row := Table.get?_of_mem_rows hmem
    have hrows := Table.rows_put_of_get? hget
    refine .found row _ hmem hmatches.1.2 hmatches.2 (fun other hother => ?_) hrows ?_
    · by_cases hkey : other.id = (row.refreshed item).id
      · rw [if_pos hkey, Table.eq_of_key hother hget hkey]
        exact .inr ⟨rfl, rfl⟩
      · rw [if_neg hkey]
        exact .inl rfl
    · have hid : row.id = (row.refreshed item).id := rfl
      rw [if_pos hid]
  next hnone =>
    split at hinsert
    next => cases hinsert
    next hfree =>
      cases hinsert
      have hget : news.get? (NewsRow.id ⟨item, userId⟩) = none :=
        Option.not_isSome_iff_eq_none.mp hfree
      refine .added (fun row hrow huser heq hurl => ?_) (fun _ row hrow hid => ?_)
        (Table.rows_put_of_none hget) rfl
      · have hother := List.find?_eq_none.mp hnone row hrow
        refine hother ?_
        rw [heq, hurl, beq_self_eq_true, beq_self_eq_true, Bool.and_true, Bool.and_true,
          Option.isSome_iff_ne_none]
        exact huser
      · have hfound := Table.get?_of_mem_rows hrow
        rw [hid] at hfound
        exact Option.some_ne_none _ (hfound.symm.trans hget)

/-- Either repository adds the item or finds its row. -/
theorem inserted_insert {news news' : storage.Held} (h : SoundRows ports storage (storage.rows news))
    {item persisted : NewsItem} {userId : Option String} (hnamed : Named userId)
    (hinsert : storage.insert news item userId = .ok (news', persisted)) :
    Inserted storage (storage.rows news) (storage.rows news') item userId persisted := by
  cases storage with
  | inMemory =>
    have heq := Except.ok.inj hinsert
    have hinserted : Inserted .inMemory news.rows (news.insert item userId).1.rows item userId
        (news.insert item userId).2 := inserted_memory h hnamed
    rw [show news.insert item userId = (news', persisted) from heq] at hinserted
    exact hinserted
  | postgres => exact inserted_postgres hnamed hinsert

namespace Inserted

variable {before after : List NewsRow} {item persisted : NewsItem} {userId : Option String}

theorem grown (h : Inserted storage before after item userId persisted) :
    ∀ row ∈ before, ∃ later ∈ after, Refreshed storage row later := by
  intro row hrow
  cases h with
  | added hnew hid hafter hpersisted =>
    subst hafter
    exact ⟨row, List.mem_append_left _ hrow, .refl row⟩
  | found existing rewrite hexisting huser hurl hrewrite hafter hpersisted =>
    subst hafter
    refine ⟨rewrite row, List.mem_map_of_mem hrow, ?_⟩
    rcases hrewrite row hrow with hsame | ⟨hpostgres, hwritten⟩
    · exact .inl hsame
    · exact .inr ⟨hpostgres, item, hwritten⟩

/-- The row that was persisted. -/
theorem persisted_row (h : Inserted storage before after item userId persisted) :
    ∃ row ∈ after, row.userId = userId ∧ row.item.url = item.url ∧ row.item = persisted := by
  cases h with
  | added hnew hid hafter hpersisted =>
    subst hafter
    exact ⟨⟨item, userId⟩, List.mem_append_right _ List.mem_cons_self, rfl, rfl, hpersisted.symm⟩
  | found existing rewrite hexisting huser hurl hrewrite hafter hpersisted =>
    subst hafter
    refine ⟨rewrite existing, List.mem_map_of_mem hexisting, ?_, ?_, hpersisted.symm⟩
    · rcases hrewrite existing hexisting with hsame | ⟨-, hwritten⟩
      · rw [hsame, huser]
      · rw [hwritten, ← huser]
        rfl
    · rcases hrewrite existing hexisting with hsame | ⟨-, hwritten⟩
      · rw [hsame, hurl]
      · rw [hwritten, ← hurl]
        rfl

/-- Every row is an old one, refreshed or not, or that of the call. -/
theorem earlier (h : Inserted storage before after item userId persisted) {later : NewsRow}
    (hlater : later ∈ after) : (∃ row ∈ before, Refreshed storage row later) ∨
      later.userId = userId ∧ later.item.url = item.url := by
  cases h with
  | added hnew hid hafter hpersisted =>
    subst hafter
    rcases List.mem_append.mp hlater with hold | hadded
    · exact .inl ⟨later, hold, .refl later⟩
    · rw [List.mem_singleton.mp hadded]
      exact .inr ⟨rfl, rfl⟩
  | found existing rewrite hexisting huser hurl hrewrite hafter hpersisted =>
    subst hafter
    obtain ⟨row, hrow, rfl⟩ := List.mem_map.mp hlater
    refine .inl ⟨row, hrow, ?_⟩
    rcases hrewrite row hrow with hsame | ⟨hpostgres, hwritten⟩
    · exact .inl hsame
    · exact .inr ⟨hpostgres, item, hwritten⟩

theorem sound (h : Inserted storage before after item userId persisted)
    (hbefore : SoundRows ports storage before) (hitem : item.Valid ports) (hnamed : Named userId) :
    SoundRows ports storage after := by
  cases h with
  | added hnew hid hafter hpersisted =>
    subst hafter
    refine ⟨fun row hrow => ?_, fun row hrow => ?_, ?_, fun hpostgres => ?_⟩
    · rcases List.mem_append.mp hrow with hold | hadded
      · exact hbefore.valid row hold
      · rw [List.mem_singleton.mp hadded]
        exact hitem
    · rcases List.mem_append.mp hrow with hold | hadded
      · exact hbefore.named row hold
      · rw [List.mem_singleton.mp hadded]
        exact hnamed
    · refine List.pairwise_append.mpr ⟨hbefore.once, List.pairwise_singleton _ _, ?_⟩
      intro row hrow other hother huser hsame
      rw [List.mem_singleton.mp hother] at hsame ⊢
      exact hnew row hrow (fun hnone => huser (hsame.trans hnone)) hsame
    · rw [List.map_append, List.nodup_append]
      refine ⟨hbefore.ids hpostgres, List.nodup_singleton _, ?_⟩
      intro id hid' other hother
      obtain ⟨row, hrow, rfl⟩ := List.mem_map.mp hid'
      rw [List.mem_singleton.mp hother]
      exact hid hpostgres row hrow
  | found existing rewrite hexisting huser hurl hrewrite hafter hpersisted =>
    subst hafter
    have hrefreshed : ∀ row ∈ before, Refreshed storage row (rewrite row) := by
      intro row hrow
      rcases hrewrite row hrow with hsame | ⟨hpostgres, hwritten⟩
      · exact .inl hsame
      · exact .inr ⟨hpostgres, item, hwritten⟩
    refine ⟨fun later hlater => ?_, fun later hlater => ?_, ?_, fun hpostgres => ?_⟩
    · obtain ⟨row, hrow, rfl⟩ := List.mem_map.mp hlater
      rcases hrewrite row hrow with hsame | ⟨-, hwritten⟩
      · rw [hsame]
        exact hbefore.valid row hrow
      · rw [hwritten]
        exact (hbefore.valid row hrow).refreshed hitem
    · obtain ⟨row, hrow, rfl⟩ := List.mem_map.mp hlater
      rw [(hrefreshed row hrow).userId]
      exact hbefore.named row hrow
    · rw [List.pairwise_map]
      refine hbefore.once.imp_of_mem fun {row other} hrow hother hdistinct => ?_
      rw [(hrefreshed row hrow).userId, (hrefreshed other hother).userId, (hrefreshed row hrow).url,
        (hrefreshed other hother).url]
      exact hdistinct
    · have hids : (before.map rewrite).map NewsRow.id = before.map NewsRow.id := by
        rw [List.map_map]
        exact List.map_congr_left fun row hrow => (hrefreshed row hrow).id
      rw [hids]
      exact hbefore.ids hpostgres

end Inserted

end Rows

namespace NewsWorld

variable {ports : NewsPorts} {storage : NewsStorage} {w : NewsWorld storage}

def rows (w : NewsWorld storage) : List NewsRow := storage.rows w.news

/-- The item of a call is there, for its user. -/
def Holds (w : NewsWorld storage) (call : CollectCall) : Prop :=
  ∃ row ∈ w.rows, row.userId = call.userId ∧ row.item.url = call.item.url

def HasId (w : NewsWorld storage) (newsId : String) : Prop := ∃ row ∈ w.rows, row.id = newsId

/-- What is known of a call where it stands. -/
def Fits (ports : NewsPorts) (w : NewsWorld storage) (call : CollectCall) : Prop :=
  match call.phase with
  | .inserting item => item = call.item ∧ item.Valid ports ∧ Named call.userId
  | .analyzing news => w.Holds call ∧ w.HasId news.newsId
  | .recording analysis => w.Holds call ∧ w.HasId analysis.newsId ∧ |analysis.score.toRat| ≤ 1
  | .ended (.ok ()) => w.Holds call
  | .ended (.error exception) => exception = persistenceFailed ∨
      validateNewsItem ports call.item = .error exception
  | .stopped => True

/-- Sound rows, each collected by a call of its user, and analyses of them, one for a news item and a
model. -/
structure Inv (ports : NewsPorts) (w : NewsWorld storage) : Prop where
  rows : SoundRows ports storage w.rows
  calls : ∀ callId call, w.calls.get? callId = some call → w.Fits ports call
  collected : ∀ row ∈ w.rows, ∃ callId call, w.calls.get? callId = some call ∧
    call.userId = row.userId ∧ call.item.url = row.item.url
  identities : (w.results.map Analysis.identity).Nodup
  results : ∀ analysis ∈ w.results, |analysis.score.toRat| ≤ 1 ∧ w.HasId analysis.newsId

/-- Rows stay, but for what the database refreshes, and analyses stay as they were recorded. -/
structure Keeps (before after : NewsWorld storage) : Prop where
  rows : ∀ row ∈ before.rows, ∃ later ∈ after.rows, Refreshed storage row later
  results : before.results <+: after.results

namespace Keeps

variable {before after last : NewsWorld storage}

theorem refl (w : NewsWorld storage) : Keeps w w :=
  ⟨fun row hrow => ⟨row, hrow, .refl row⟩, List.prefix_refl _⟩

theorem trans (h : Keeps before after) (h' : Keeps after last) : Keeps before last where
  rows row hrow := by
    obtain ⟨later, hlater, hrefreshed⟩ := h.rows row hrow
    obtain ⟨final, hfinal, hrefreshed'⟩ := h'.rows later hlater
    exact ⟨final, hfinal, hrefreshed.trans hrefreshed'⟩
  results := h.results.trans h'.results

theorem holds (h : Keeps before after) {call : CollectCall} (hholds : before.Holds call) :
    after.Holds call := by
  obtain ⟨row, hrow, huser, hurl⟩ := hholds
  obtain ⟨later, hlater, hrefreshed⟩ := h.rows row hrow
  exact ⟨later, hlater, hrefreshed.userId.trans huser, hrefreshed.url.trans hurl⟩

theorem hasId (h : Keeps before after) {newsId : String} (hid : before.HasId newsId) :
    after.HasId newsId := by
  obtain ⟨row, hrow, rfl⟩ := hid
  obtain ⟨later, hlater, hrefreshed⟩ := h.rows row hrow
  exact ⟨later, hlater, hrefreshed.id⟩

theorem fits (h : Keeps before after) {call : CollectCall} (hfits : before.Fits ports call) :
    after.Fits ports call := by
  unfold Fits at hfits ⊢
  split at hfits
  · exact hfits
  · exact ⟨h.holds hfits.1, h.hasId hfits.2⟩
  · exact ⟨h.holds hfits.1, h.hasId hfits.2.1, hfits.2.2⟩
  · exact h.holds hfits
  · exact hfits
  · trivial

end Keeps

theorem keeps_setPhase (call : CollectCall) (phase : CollectPhase) : Keeps w (w.setPhase call phase) :=
  ⟨fun row hrow => ⟨row, hrow, .refl row⟩, List.prefix_refl _⟩

theorem Inv.start : (start storage).Inv ports := by
  have hrows : (NewsWorld.start storage).rows = [] := by cases storage <;> rfl
  constructor
  case rows =>
    rw [hrows]
    exact ⟨nofun, nofun, List.Pairwise.nil, fun _ => List.nodup_nil⟩
  case calls =>
    intro callId call hget
    cases hget
  case collected =>
    rw [hrows]
    exact nofun
  case identities => exact List.nodup_nil
  case results =>
    intro analysis hanalysis
    cases hanalysis

/-- A call goes on, and nothing else changes. -/
theorem Inv.setPhase (h : w.Inv ports) {call : CollectCall} {phase : CollectPhase}
    (hcall : ∀ existing, w.calls.get? call.callId = some existing →
      existing.userId = call.userId ∧ existing.item = call.item)
    (hfits : w.Fits ports { call with phase }) : (w.setPhase call phase).Inv ports where
  rows := h.rows
  calls callId found hfound := by
    refine (keeps_setPhase call phase).fits ?_
    by_cases heq : callId = call.callId
    · have hself : (w.setPhase call phase).calls.get? callId = some { call with phase } :=
        Table.get?_put_of_eq _ heq
      rw [hself] at hfound
      cases hfound
      exact hfits
    · have hother : (w.setPhase call phase).calls.get? callId = w.calls.get? callId :=
        Table.get?_put_of_ne _ heq
      rw [hother] at hfound
      exact h.calls callId found hfound
  collected row hrow := by
    obtain ⟨callId, collector, hget, huser, hurl⟩ := h.collected row hrow
    by_cases heq : callId = call.callId
    · obtain ⟨hsame, hitem⟩ := hcall collector (heq ▸ hget)
      have hself : (w.setPhase call phase).calls.get? callId = some { call with phase } :=
        Table.get?_put_of_eq _ heq
      exact ⟨callId, _, hself, hsame ▸ huser, hitem ▸ hurl⟩
    · have hother : (w.setPhase call phase).calls.get? callId = w.calls.get? callId :=
        Table.get?_put_of_ne _ heq
      exact ⟨callId, collector, hother.trans hget, huser, hurl⟩
  identities := h.identities
  results := h.results

/-- An item is persisted by its call. -/
theorem Inv.insert (h : w.Inv ports) {call : CollectCall} {news : storage.Held} {persisted : NewsItem}
    (hcall : w.calls.get? call.callId = some call) (hitem : call.item.Valid ports)
    (hnamed : Named call.userId)
    (hinsert : storage.insert w.news call.item call.userId = .ok (news, persisted)) :
    ({ w with news } : NewsWorld storage).Inv ports ∧
      Keeps w ({ w with news } : NewsWorld storage) := by
  have hinserted := inserted_insert h.rows hnamed hinsert
  have hkeeps : Keeps w ({ w with news } : NewsWorld storage) :=
    ⟨hinserted.grown, List.prefix_refl _⟩
  refine ⟨⟨hinserted.sound h.rows hitem hnamed, fun callId found hfound => ?_, fun row hrow => ?_,
    h.identities, fun analysis hanalysis => ?_⟩, hkeeps⟩
  · exact hkeeps.fits (h.calls callId found hfound)
  · rcases hinserted.earlier hrow with ⟨earlier, hearlier, hrefreshed⟩ | ⟨huser, hurl⟩
    · obtain ⟨callId, collector, hget, huser, hurl⟩ := h.collected earlier hearlier
      exact ⟨callId, collector, hget, huser.trans hrefreshed.userId.symm,
        hurl.trans hrefreshed.url.symm⟩
    · exact ⟨call.callId, call, hcall, huser.symm, hurl.symm⟩
  · obtain ⟨hscore, hid⟩ := h.results analysis hanalysis
    exact ⟨hscore, hkeeps.hasId hid⟩

theorem record_cases {news : storage.Held} {results results' : List Analysis} {analysis : Analysis}
    (h : storage.record news results analysis = .ok results') :
    results' = results ∨ results' = results ++ [analysis] ∧
      ∀ other ∈ results, other.identity ≠ analysis.identity := by
  have hnew : ¬ (results.any (·.identity == analysis.identity)) = true →
      ∀ other ∈ results, other.identity ≠ analysis.identity := by
    intro hnone other hother heq
    exact hnone (List.any_eq_true.mpr ⟨other, hother, by simp [heq]⟩)
  cases storage with
  | inMemory =>
    simp only [NewsStorage.record] at h
    split at h
    · cases h
    · cases h
      exact .inr ⟨rfl, hnew ‹_›⟩
  | postgres =>
    simp only [NewsStorage.record] at h
    split at h
    · cases h
    · split at h
      · cases h
        exact .inl rfl
      · cases h
        exact .inr ⟨rfl, hnew ‹_›⟩

/-- An analysis of news that are there is recorded. -/
theorem Inv.record (h : w.Inv ports) {analysis : Analysis} {results : List Analysis}
    (hscore : |analysis.score.toRat| ≤ 1) (hid : w.HasId analysis.newsId)
    (hrecord : storage.record w.news w.results analysis = .ok results) :
    ({ w with results } : NewsWorld storage).Inv ports ∧
      Keeps w ({ w with results } : NewsWorld storage) := by
  rcases record_cases hrecord with rfl | ⟨rfl, hnew⟩
  · exact ⟨h, .refl w⟩
  · have hkeeps : Keeps w ({ w with results := w.results ++ [analysis] } : NewsWorld storage) :=
      ⟨fun row hrow => ⟨row, hrow, .refl row⟩, List.prefix_append _ _⟩
    refine ⟨⟨h.rows, fun callId found hfound => hkeeps.fits (h.calls callId found hfound), h.collected,
      ?_, fun other hother => ?_⟩, hkeeps⟩
    · rw [List.map_append, List.nodup_append]
      refine ⟨h.identities, List.nodup_singleton _, ?_⟩
      intro identity hidentity last hlast
      obtain ⟨other, hother, rfl⟩ := List.mem_map.mp hidentity
      rw [List.mem_singleton.mp hlast]
      exact hnew other hother
    · rcases List.mem_append.mp hother with hold | hadded
      · exact h.results other hold
      · rw [List.mem_singleton.mp hadded]
        exact ⟨hscore, hid⟩

section Steps

variable {call : CollectCall}

/-- A stored call goes on. -/
theorem Inv.goOn (h : w.Inv ports) (hcall : w.calls.get? call.callId = some call)
    {phase : CollectPhase} (hfits : w.Fits ports { call with phase }) :
    (w.setPhase call phase).Inv ports ∧ Keeps w (w.setPhase call phase) := by
  refine ⟨h.setPhase (fun existing hexisting => ?_) hfits, keeps_setPhase call phase⟩
  rw [hcall] at hexisting
  cases hexisting
  exact ⟨rfl, rfl⟩

/-- What was persisted is analyzed. -/
theorem fits_analysisOf {persisted : NewsItem} (hvalid : persisted.Valid ports)
    (hholds : w.Holds call) (hid : w.HasId persisted.id) :
    w.Fits ports { call with phase := analysisOf ports persisted } := by
  obtain ⟨news, hnews, hnewsId⟩ := hvalid.analyzable
  have hphase : analysisOf ports persisted = .analyzing news := by
    simp only [analysisOf, validateNewsItem_eq_ok.mpr ⟨hvalid, rfl⟩, hnews]
  rw [hphase]
  exact ⟨hholds, hnewsId ▸ hid⟩

theorem inv_insertStep (h : w.Inv ports) (hcall : w.calls.get? call.callId = some call)
    {item : NewsItem} (hphase : call.phase = .inserting item) (answer : PortAnswer) :
    (w.insertStep ports call item answer).Inv ports ∧
      Keeps w (w.insertStep ports call item answer) := by
  have hfits := h.calls _ call hcall
  rw [Fits, hphase] at hfits
  obtain ⟨rfl, hvalid, hnamed⟩ := hfits
  have hrefused : (w.setPhase call (.ended (.error persistenceFailed))).Inv ports ∧
      Keeps w (w.setPhase call (.ended (.error persistenceFailed))) :=
    h.goOn hcall (.inl rfl)
  have hlands : ∀ news persisted phase,
      storage.insert w.news call.item call.userId = .ok (news, persisted) →
      phase = .ended (.error persistenceFailed) ∨ phase = analysisOf ports persisted →
      (({ w with news } : NewsWorld storage).setPhase call phase).Inv ports ∧
        Keeps w (({ w with news } : NewsWorld storage).setPhase call phase) := by
    intro news persisted phase hinsert hphase
    obtain ⟨hinv, hkeeps⟩ := h.insert hcall hvalid hnamed hinsert
    obtain ⟨row, hrow, huser, hurl, hitem⟩ :=
      (inserted_insert h.rows hnamed hinsert).persisted_row
    have hfits : ({ w with news } : NewsWorld storage).Fits ports { call with phase } := by
      rcases hphase with rfl | rfl
      · exact .inl rfl
      · refine fits_analysisOf ?_ ⟨row, hrow, huser, hurl⟩ ⟨row, hrow, congrArg NewsItem.id hitem⟩
        rw [← hitem]
        exact hinv.rows.valid row hrow
    obtain ⟨hinv', hkeeps'⟩ := hinv.goOn hcall hfits
    exact ⟨hinv', hkeeps.trans hkeeps'⟩
  cases answer with
  | failed error => exact hrefused
  | done =>
    simp only [insertStep]
    split
    next => exact hrefused
    next news persisted hinsert => exact hlands news persisted _ hinsert (.inr rfl)
  | lost error =>
    simp only [insertStep]
    split
    next => exact hrefused
    next news persisted hinsert => exact hlands news persisted _ hinsert (.inl rfl)

/-- The analysis of a call; that it fails never fails the call. -/
theorem inv_analyzedStep (h : w.Inv ports) (hcall : w.calls.get? call.callId = some call)
    {news : Sentiment.NewsItem} (hphase : call.phase = .analyzing news)
    (answer : Except String Sentiment.SentimentResult) :
    (w.analyzedStep ports call news answer).Inv ports ∧
      Keeps w (w.analyzedStep ports call news answer) := by
  have hfits := h.calls _ call hcall
  rw [Fits, hphase] at hfits
  obtain ⟨hholds, hid⟩ := hfits
  refine h.goOn hcall ?_
  split
  next => exact hholds
  next result =>
    split
    next => exact hholds
    next stored hstored =>
      have hnewsId : (Analysis.of stored).newsId = news.newsId :=
        newsId_of_validateSentimentResult hstored
      exact ⟨hholds, hnewsId ▸ hid, stored.inRange⟩

/-- The recording of an analysis, of which the first one of an item and a model counts. -/
theorem inv_recordStep (h : w.Inv ports) (hcall : w.calls.get? call.callId = some call)
    {analysis : Analysis} (hphase : call.phase = .recording analysis) (answer : PortAnswer) :
    (w.recordStep call analysis answer).Inv ports ∧ Keeps w (w.recordStep call analysis answer) := by
  have hfits := h.calls _ call hcall
  rw [Fits, hphase] at hfits
  obtain ⟨hholds, hid, hscore⟩ := hfits
  have hended : (w.setPhase call (.ended (.ok ()))).Inv ports ∧
      Keeps w (w.setPhase call (.ended (.ok ()))) := h.goOn hcall hholds
  have hlands : ∀ results, storage.record w.news w.results analysis = .ok results →
      (({ w with results } : NewsWorld storage).setPhase call (.ended (.ok ()))).Inv ports ∧
        Keeps w (({ w with results } : NewsWorld storage).setPhase call (.ended (.ok ()))) := by
    intro results hrecord
    obtain ⟨hinv, hkeeps⟩ := h.record hscore hid hrecord
    have hfits : ({ w with results } : NewsWorld storage).Fits ports
        { call with phase := .ended (.ok ()) } := hkeeps.holds hholds
    obtain ⟨hinv', hkeeps'⟩ := hinv.goOn hcall hfits
    exact ⟨hinv', hkeeps.trans hkeeps'⟩
  cases answer with
  | failed error => exact hended
  | done | lost =>
    simp only [recordStep]
    split
    next => exact hended
    next results hrecord => exact hlands results hrecord

/-- One step of any call keeps the invariant, and what is stored. -/
theorem inv_next (w : NewsWorld storage) (step : CollectStep) (h : w.Inv ports)
    (henabled : (system ports storage).enabled w step) :
    ((system ports storage).next w step).Inv ports ∧
      Keeps w ((system ports storage).next w step) := by
  cases step with
  | collect callId item userId =>
    obtain ⟨hfree, hnamed⟩ := henabled
    refine ⟨?_, keeps_setPhase _ _⟩
    refine h.setPhase (fun existing hexisting => ?_) ?_
    · exact absurd (hexisting.symm.trans hfree) (Option.some_ne_none _)
    · split
      next checked hchecked =>
        obtain ⟨hvalid, rfl⟩ := validateNewsItem_eq_ok.mp hchecked
        exact ⟨rfl, hvalid, hnamed⟩
      next exception hexception => exact .inr hexception
  | insert callId answer =>
    obtain ⟨call, item, hcall, hphase⟩ := henabled
    obtain rfl := Table.key_of_get? hcall
    simp only [system, next, hcall, hphase]
    exact inv_insertStep h hcall hphase answer
  | analyzed callId answer =>
    obtain ⟨call, news, hcall, hphase⟩ := henabled
    obtain rfl := Table.key_of_get? hcall
    simp only [system, next, hcall, hphase]
    exact inv_analyzedStep h hcall hphase answer
  | record callId answer =>
    obtain ⟨call, analysis, hcall, hphase⟩ := henabled
    obtain rfl := Table.key_of_get? hcall
    simp only [system, next, hcall, hphase]
    exact inv_recordStep h hcall hphase answer
  | stop callId =>
    obtain ⟨call, hcall, -⟩ := henabled
    obtain rfl := Table.key_of_get? hcall
    simp only [system, next, hcall]
    exact h.goOn hcall trivial

end Steps

end NewsWorld

end Cryptox.News
