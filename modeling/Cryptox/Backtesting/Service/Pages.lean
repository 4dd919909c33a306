import Cryptox.Backtesting.Contracts
import Cryptox.Library.Comparators
import Cryptox.Library.Cursor
import Cryptox.Library.Outcome
import Cryptox.Library.Paging

/-!
# Pages of trades

A page is a cut of the ordered trades. The cursor of the next one is a base64url text that names
the owner, the resource, the limit and the key of the last trade.
-/
namespace Cryptox.Backtesting

open Cryptox.Library

def TRADE_PAGE_DEFAULT : Nat := 10
def TRADE_PAGE_MAX : Nat := 100

structure TradePageRequest where
  limit : Option JsNumber
  cursor : Option String
deriving DecidableEq, Repr

abbrev TradePage := Page Trade String

structure TradeKey where
  entryTime : String
  sequence : ℤ
  id : String
deriving DecidableEq, Repr

structure TradeCursor where
  ownerUserId : String
  resource : String
  limit : ℤ
  last : TradeKey
deriving DecidableEq, Repr

def tradeKey (trade : Trade) : TradeKey := ⟨trade.entryTime, trade.sequence, trade.id⟩

def compareTradeKey (localeCompare : String → String → Ordering) (left right : Trade) : Ordering :=
  (localeCompare left.entryTime right.entryTime).then
    ((compare left.sequence right.sequence).then (localeCompare left.id right.id))

section Cursors

def cursorJson (cursor : TradeCursor) : CursorJson :=
  .object [("version".toList, integerJson 1), ("ownerUserId".toList, textJson cursor.ownerUserId),
    ("resource".toList, textJson cursor.resource), ("limit".toList, integerJson cursor.limit),
    ("last".toList, .object [("entryTime".toList, textJson cursor.last.entryTime),
      ("sequence".toList, integerJson cursor.last.sequence), ("id".toList, textJson cursor.last.id)])]

def encodeTradeCursor (ownerUserId resource : String) (limit : ℤ) (trade : Trade) : String :=
  cursorText (cursorJson ⟨ownerUserId, resource, limit, tradeKey trade⟩)

def readCursor (json : CursorJson) : Option TradeCursor := do
  let version ← integerOf (← propertyOf "version" json)
  let ownerUserId ← textOf (← propertyOf "ownerUserId" json)
  let resource ← textOf (← propertyOf "resource" json)
  let limit ← integerOf (← propertyOf "limit" json)
  let last ← propertyOf "last" json
  let entryTime ← textOf (← propertyOf "entryTime" last)
  let sequence ← integerOf (← propertyOf "sequence" last)
  let id ← textOf (← propertyOf "id" last)
  if version = 1 then some ⟨ownerUserId, resource, limit, entryTime, sequence, id⟩ else none

def decodeTradeCursor (cursor : String) : Except String TradeCursor :=
  let json := JsonValue.parse DecimalNumber.format (decodeUtf8 (decodeBase64Url cursor.toList))
  match json.bind readCursor with
  | some read => .ok read
  | none => .error "INVALID_CURSOR"

theorem readCursor_cursorJson (cursor : TradeCursor) :
    readCursor (cursorJson cursor) = some cursor := by
  simp [readCursor, cursorJson, propertyOf, List.lookup_cons, textOf_textJson, integerOf_integerJson]

/-- Decoding gives back what was encoded. -/
theorem decode_cursorText (cursor : TradeCursor) :
    decodeTradeCursor (cursorText (cursorJson cursor)) = .ok cursor := by
  rw [decodeTradeCursor, parse_cursorText, Option.bind_some, readCursor_cursorJson]

end Cursors

section Paging

variable (localeCompare : String → String → Ordering)

def orderedTrades (trades : List Trade) : List Trade :=
  sortWith (compareTradeKey localeCompare) trades

/-- Where a page starts. An empty cursor is none. -/
def pageStart (ordered : List Trade) (cursor : Option String) (limit : Nat)
    (ownerUserId resource : String) : Except String Nat :=
  match cursor.filter (· ≠ "") with
  | none => .ok 0
  | some text => do
    let cursor ← decodeTradeCursor text
    throwIf (cursor.ownerUserId != ownerUserId || cursor.resource != resource
      || cursor.limit != limit || cursor.limit < 1 || TRADE_PAGE_MAX < cursor.limit) "INVALID_CURSOR"
    match ordered.findIdx? fun trade => tradeKey trade = cursor.last with
    | none => .error "INVALID_CURSOR"
    | some index => .ok (index + 1)

def pageTrades (trades : List Trade) (page : TradePageRequest) (ownerUserId resource : String) :
    Except String TradePage := do
  let limit := page.limit.getD (.ofInt TRADE_PAGE_DEFAULT)
  throwIf (!limit.isInteger || limit.lt (.ofInt 1) || (JsNumber.ofInt TRADE_PAGE_MAX).lt limit)
    "INVALID_PAGE"
  let ordered := orderedTrades localeCompare trades
  let start ← pageStart ordered page.cursor limit.toNat ownerUserId resource
  let items := (ordered.drop start).take limit.toNat
  return {
    items
    totalCount := ordered.length
    nextCursor :=
      if start + items.length < ordered.length then
        items.getLast?.map (encodeTradeCursor ownerUserId resource limit.toNat)
      else none }

/-- What the reader of one owner, resource and limit answers to a cursor. -/
def readPage (trades : List Trade) (ownerUserId resource : String) (limit : Nat)
    (cursor : Option String) : Except String TradePage :=
  pageTrades localeCompare trades ⟨some (.ofInt limit), cursor⟩ ownerUserId resource

variable {localeCompare} {trades : List Trade} {ownerUserId resource : String} {limit : Nat}

theorem limit_check (hlimit : 1 ≤ limit ∧ limit ≤ TRADE_PAGE_MAX) :
    (!(JsNumber.ofInt limit).isInteger || (JsNumber.ofInt limit).lt (.ofInt 1)
      || (JsNumber.ofInt TRADE_PAGE_MAX).lt (.ofInt limit)) = false := by
  have hinteger : (JsNumber.ofInt limit).isInteger = true := rfl
  have hone : Decimal.powerOfTen 0 = 1 := rfl
  have hlow : (JsNumber.ofInt limit).lt (.ofInt 1) = false := by
    simp only [JsNumber.ofInt, JsNumber.lt, Decimal.fromInteger, hone, decide_eq_false_iff_not]
    omega
  have hhigh : (JsNumber.ofInt TRADE_PAGE_MAX).lt (.ofInt limit) = false := by
    simp only [JsNumber.ofInt, JsNumber.lt, Decimal.fromInteger, hone, decide_eq_false_iff_not]
    omega
  rw [hinteger, hlow, hhigh]
  rfl

theorem readPage_eq (hlimit : 1 ≤ limit ∧ limit ≤ TRADE_PAGE_MAX) (cursor : Option String) :
    readPage localeCompare trades ownerUserId resource limit cursor =
      (pageStart (orderedTrades localeCompare trades) cursor limit ownerUserId resource).map
        (cut (encodeTradeCursor ownerUserId resource limit) (orderedTrades localeCompare trades)
          limit) := by
  have hcheck := limit_check hlimit
  have htoNat : (JsNumber.ofInt limit).toNat = limit := rfl
  simp only [readPage, pageTrades, Option.getD_some, hcheck, throwIf_false, htoNat]
  cases pageStart (orderedTrades localeCompare trades) cursor limit ownerUserId resource <;> rfl

theorem pageStart_encoded (ordered : List Trade) (owner' resource' : String) (limit' : ℤ)
    (trade : Trade) :
    pageStart ordered (some (encodeTradeCursor owner' resource' limit' trade)) limit ownerUserId
        resource =
      (throwIf (owner' != ownerUserId || resource' != resource || limit' != limit || limit' < 1
        || TRADE_PAGE_MAX < limit') "INVALID_CURSOR").bind fun _ =>
          match ordered.findIdx? fun other => tradeKey other = tradeKey trade with
          | none => .error "INVALID_CURSOR"
          | some index => .ok (index + 1) := by
  have hcursor : (some (encodeTradeCursor owner' resource' limit' trade)).filter
      (fun text => decide (text ≠ "")) = some (encodeTradeCursor owner' resource' limit' trade) := by
    rw [Option.filter_some, if_pos]
    exact decide_eq_true (cursorText_ne_empty _)
  have hdecode : decodeTradeCursor (encodeTradeCursor owner' resource' limit' trade) =
      .ok ⟨owner', resource', limit', tradeKey trade⟩ := decode_cursorText _
  rw [pageStart, hcursor]
  simp only [hdecode]
  rfl

/-- A cursor issued for another owner, resource or limit is refused. -/
theorem pageStart_foreign (ordered : List Trade) {owner' resource' : String} {limit' : ℤ}
    (trade : Trade) (hforeign : owner' ≠ ownerUserId ∨ resource' ≠ resource ∨ limit' ≠ limit) :
    pageStart ordered (some (encodeTradeCursor owner' resource' limit' trade)) limit ownerUserId
      resource = .error "INVALID_CURSOR" := by
  have hrefused : (owner' != ownerUserId || resource' != resource || limit' != limit || limit' < 1
      || TRADE_PAGE_MAX < limit') = true := by
    simp only [Bool.or_eq_true, bne_iff_ne]
    tauto
  rw [pageStart_encoded, hrefused]
  rfl

/-- The cursor of a trade leads behind it. -/
theorem pageStart_own {ordered : List Trade} (hkeys : (ordered.map tradeKey).Nodup)
    (hlimit : 1 ≤ limit ∧ limit ≤ TRADE_PAGE_MAX) {i : Nat} {trade : Trade}
    (htrade : ordered[i]? = some trade) :
    pageStart ordered (some (encodeTradeCursor ownerUserId resource limit trade)) limit ownerUserId
      resource = .ok (i + 1) := by
  have haccepted : (ownerUserId != ownerUserId || resource != resource || (limit : ℤ) != limit
      || decide ((limit : ℤ) < 1) || decide ((TRADE_PAGE_MAX : ℤ) < limit)) = false := by
    simp only [Bool.or_eq_false_iff, bne_self_eq_false, decide_eq_false_iff_not, true_and]
    omega
  obtain ⟨hi, hget⟩ := List.getElem?_eq_some_iff.mp htrade
  have hindex : ordered.findIdx? (fun other => tradeKey other = tradeKey trade) = some i := by
    rw [List.findIdx?_eq_some_iff_getElem]
    refine ⟨hi, by rw [hget]; exact decide_eq_true rfl, ?_⟩
    intro j hj hsame
    have hjk : j = i := by
      refine (@List.Nodup.getElem_inj_iff _ _ hkeys _ ?_ _ ?_).mp ?_
      · rw [List.length_map]
        omega
      · rw [List.length_map]
        exact hi
      · rw [List.getElem_map, List.getElem_map, hget]
        exact of_decide_eq_true hsame
    omega
  rw [pageStart_encoded, haccepted, hindex]
  rfl

theorem orderedTrades_perm (trades : List Trade) :
    (orderedTrades localeCompare trades).Perm trades :=
  sortWith_perm _ trades

theorem cuts_readPage (hkeys : (trades.map tradeKey).Nodup)
    (hlimit : 1 ≤ limit ∧ limit ≤ TRADE_PAGE_MAX) :
    Cuts (readPage localeCompare trades ownerUserId resource limit)
      (encodeTradeCursor ownerUserId resource limit) (orderedTrades localeCompare trades) limit where
  first := readPage_eq hlimit none
  next := by
    intro i trade htrade
    have hordered : ((orderedTrades localeCompare trades).map tradeKey).Nodup :=
      ((orderedTrades_perm trades).map tradeKey).nodup_iff.mpr hkeys
    rw [readPage_eq hlimit, pageStart_own hordered hlimit htrade]
    rfl

instance transCmp_compareTradeKey [Std.TransCmp localeCompare] :
    Std.TransCmp (compareTradeKey localeCompare) :=
  inferInstanceAs (Std.TransCmp (compareLex
    (fun left right : Trade => localeCompare left.entryTime right.entryTime)
    (compareLex (compareOn fun trade : Trade => trade.sequence)
      fun left right : Trade => localeCompare left.id right.id)))

/-- Following the cursors of one owner, resource and limit gives every trade once and in order, in
full pages but for the last. Decoding gives back what was encoded, and a cursor issued for another
owner, resource or limit is refused. -/
theorem trade_pages_lossless (localeCompare : String → String → Ordering)
    [Std.TransCmp localeCompare] (trades : List Trade) (hkeys : (trades.map tradeKey).Nodup)
    (ownerUserId resource : String) (limit : Nat) (hlimit : 1 ≤ limit ∧ limit ≤ 100) :
    (∃ pages, (∀ others, Followed (readPage localeCompare trades ownerUserId resource limit) none
          others ↔ others = pages) ∧
        (pages.flatMap (·.items)).Perm trades ∧
        (pages.flatMap (·.items)).Pairwise (fun left right =>
          compareTradeKey localeCompare left right ≠ .gt) ∧
        (∀ page ∈ pages.dropLast, page.items.length = limit) ∧
        (∀ page ∈ pages, page.items.length ≤ limit) ∧
        ∀ page ∈ pages, page.totalCount = trades.length) ∧
      (∀ (owner' resource' : String) (limit' : ℤ) (trade : Trade),
        decodeTradeCursor (encodeTradeCursor owner' resource' limit' trade) =
          .ok ⟨owner', resource', limit', tradeKey trade⟩) ∧
      ∀ (owner' resource' : String) (limit' : ℤ) (trade : Trade),
        owner' ≠ ownerUserId ∨ resource' ≠ resource ∨ limit' ≠ limit →
          readPage localeCompare trades ownerUserId resource limit
            (some (encodeTradeCursor owner' resource' limit' trade)) = .error "INVALID_CURSOR" := by
  have hperm : (orderedTrades localeCompare trades).Perm trades := orderedTrades_perm trades
  obtain ⟨pages, hpages, hlossless⟩ := followed_all hlimit.1
    (@cuts_readPage localeCompare trades ownerUserId resource limit hkeys hlimit)
  refine ⟨⟨pages, hpages, ?_, ?_, hlossless.full, hlossless.bounded, ?_⟩, ?_, ?_⟩
  · rw [hlossless.items]
    exact hperm
  · rw [hlossless.items]
    exact sortWith_pairwise _ trades
  · intro page hpage
    rw [hlossless.total page hpage, hperm.length_eq]
  · exact fun owner' resource' limit' trade => decode_cursorText _
  · intro owner' resource' limit' trade hforeign
    rw [readPage_eq hlimit, pageStart_foreign _ trade hforeign]
    rfl

def listedTrade (sequence : Nat) : Trade where
  id := "attempt-trade"
  sequence := sequence
  pair := "BTCUSDT"
  settlementAsset := "USDT"
  backtestAttemptId := "attempt"
  signal := .long
  entryTime := "2025-01-01T00:00:00.000Z"
  marketEntryPrice := .fromInteger 100
  entryPrice := .fromInteger 100
  stopLoss := none
  takeProfit := none
  exitTime := "2025-01-01T01:00:00.000Z"
  marketExitPrice := .fromInteger 100
  exitPrice := .fromInteger 100
  exitReason := .strategyClose
  quantity := .fromInteger 1
  notionalEntryValue := .fromInteger 100
  equityBeforeTrade := .fromInteger 100
  equityAfterTrade := .fromInteger 100
  grossProfit := .fromInteger 0
  feeAmount := .fromInteger 0
  slippageBps := .ofInt 0
  slippageAmount := .fromInteger 0
  profit := .fromInteger 0
  resultPercent := .fromInteger 0
  result := .breakeven

/-- Two trades of one moment on pages of one. -/
theorem trade_pages_lossless_pair :
    ∃ pages : List TradePage,
      Followed (readPage compare [listedTrade 2, listedTrade 1] "user" "attempt" 1) none pages ∧
        (pages.flatMap (·.items)).Perm [listedTrade 2, listedTrade 1] ∧
        ∀ page ∈ pages.dropLast, page.items.length = 1 := by
  obtain ⟨⟨pages, hpages, hperm, -, hfull, -⟩, -⟩ :=
    trade_pages_lossless compare [listedTrade 2, listedTrade 1] (by decide) "user" "attempt" 1
      (by decide)
  exact ⟨pages, (hpages pages).mpr rfl, hperm, hfull⟩

end Paging

end Cryptox.Backtesting
