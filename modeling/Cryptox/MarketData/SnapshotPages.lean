import Cryptox.Library.Cursor
import Cryptox.Library.Paging
import Cryptox.MarketData.SnapshotCompleteness

/-!
# Pages of a snapshot

The reader of a snapshot makes up a query of candles from the pair, the timeframe and the limit,
and its cursors are bound to that query.
-/
namespace Cryptox.MarketData

open Cryptox.Backtesting (Timeframe)
open Cryptox.Library

section Cursors

/-- The fields of a query that its cursors are bound to, as they are after the checks. -/
structure CursorQuery where
  pair : String
  timeframe : String
  range : Option RawRange
  limit : Nat
  includeForming : Bool
  requireComplete : Bool
deriving DecidableEq, Repr

namespace CursorQuery

def rangeFields (query : CursorQuery) : List (List Char × CursorJson) :=
  match query.range with
  | some range => [("range".toList, .object
      [("from".toList, textJson range.fromTime), ("to".toList, textJson range.toTime)])]
  | none => []

def json (query : CursorQuery) : CursorJson :=
  .object ([("pair".toList, textJson query.pair),
    ("timeframe".toList, textJson query.timeframe)] ++ query.rangeFields ++
    [("limit".toList, integerJson query.limit),
    ("includeForming".toList, .bool query.includeForming),
    ("completeness".toList,
      textJson (if query.requireComplete then "REQUIRE_COMPLETE" else "ALLOW_PARTIAL"))])

def fingerprint (query : CursorQuery) : String :=
  String.ofList (query.json.print DecimalNumber.format)

def encodeCursor (query : CursorQuery) (offset : Nat) : String :=
  cursorText (.object
    [("fingerprint".toList, textJson query.fingerprint), ("offset".toList, integerJson offset)])

def invalidCursor : MarketDataException :=
  { code := .invalidCursor, message := "Cursor is invalid or bound to another query." }

def readOffset (query : CursorQuery) (json : CursorJson) : Option Nat := do
  let fingerprint ← textOf (← propertyOf "fingerprint" json)
  let offset ← integerOf (← propertyOf "offset" json)
  if fingerprint = query.fingerprint ∧ 0 ≤ offset then some offset.toNat else none

/-- An empty cursor is none. -/
def decodeCursor (query : CursorQuery) (cursor : Option String) :
    Except MarketDataException Nat :=
  match cursor.filter (· ≠ "") with
  | none => .ok 0
  | some text =>
    let json := JsonValue.parse DecimalNumber.format (decodeUtf8 (decodeBase64Url text.toList))
    match json.bind query.readOffset with
    | some offset => .ok offset
    | none => .error invalidCursor

variable {query other : CursorQuery}

theorem decodeCursor_encodeCursor (query other : CursorQuery) (offset : Nat) :
    query.decodeCursor (some (other.encodeCursor offset)) =
      if other.fingerprint = query.fingerprint then .ok offset else .error invalidCursor := by
  have hcursor : (some (other.encodeCursor offset)).filter (fun text => decide (text ≠ "")) =
      some (other.encodeCursor offset) := by
    rw [Option.filter_some, if_pos]
    exact decide_eq_true (cursorText_ne_empty _)
  rw [decodeCursor, hcursor]
  simp only [encodeCursor, parse_cursorText, Option.bind_some]
  by_cases hsame : other.fingerprint = query.fingerprint
  · simp [readOffset, propertyOf, List.lookup_cons, textOf_textJson, integerOf_integerJson, hsame]
  · simp [readOffset, propertyOf, List.lookup_cons, textOf_textJson, integerOf_integerJson, hsame]

theorem textJson_inj {first second : String} (h : textJson first = textJson second) :
    first = second := by
  have htext := congrArg textOf h
  rw [textOf_textJson, textOf_textJson] at htext
  exact Option.some.inj htext

theorem integerJson_inj {first second : ℤ} (h : integerJson first = integerJson second) :
    first = second := by
  have hinteger := congrArg integerOf h
  rw [integerOf_integerJson, integerOf_integerJson] at hinteger
  exact Option.some.inj hinteger

/-- Of two queries that ask for no range the fingerprints tell the pair, the timeframe and the
limit. -/
theorem fingerprint_parts (hrange : query.range = none) (hrange' : other.range = none)
    (h : other.fingerprint = query.fingerprint) :
    other.pair = query.pair ∧ other.timeframe = query.timeframe ∧ other.limit = query.limit := by
  have hjson := JsonValue.print_inj _ (String.ofList_injective h)
  simp only [json, rangeFields, hrange, hrange', JsonValue.object.injEq, List.append_nil,
    List.cons_append, List.nil_append, List.cons.injEq, Prod.mk.injEq, true_and] at hjson
  obtain ⟨hpair, htimeframe, hlimit, -⟩ := hjson
  exact ⟨textJson_inj hpair, textJson_inj htimeframe, by exact_mod_cast integerJson_inj hlimit⟩

end CursorQuery

end Cursors

structure DatasetSnapshotReadQuery where
  snapshotId : String
  cursor : Option String
  limit : Option JsDouble

structure DatasetSnapshotPage where
  snapshot : DatasetSnapshotRef
  candles : List Candle
  nextCursor : Option String

section Reading

variable (hash : String → String) (service : DatasetService)

/-- The snapshots of the process come first. What the repository has is validated again. -/
def findDataset (snapshotId : String) : Except MarketDataException SealedDataset :=
  match service.snapshots.get? snapshotId with
  | some entry => .ok entry
  | none =>
    match service.repository.bind fun rows => rows.get? snapshotId with
    | some row => do
      validateContent hash row
      return row
    | none =>
      .error { code := .datasetNotFound, message := "Dataset snapshot was not found." }

def syntheticQuery (snapshot : DatasetSnapshotRef) (limit : Nat) : CursorQuery where
  pair := snapshot.pair.text
  timeframe := timeframeText snapshot.timeframe
  range := none
  limit
  includeForming := false
  requireComplete := false

def readDatasetSnapshot (query : DatasetSnapshotReadQuery) :
    Except MarketDataException DatasetSnapshotPage := do
  let limit ← validateLimit query.limit
  let entry ← findDataset hash service query.snapshotId
  let synthetic := syntheticQuery entry.snapshot limit
  let offset ← synthetic.decodeCursor query.cursor
  return {
    snapshot := entry.snapshot
    candles := (entry.candles.drop offset).take limit
    nextCursor :=
      if offset + limit < entry.candles.length then some (synthetic.encodeCursor (offset + limit))
      else none }

/-- A page with the number of the candles of its snapshot. -/
def DatasetSnapshotPage.toPage (page : DatasetSnapshotPage) : Page Candle String :=
  ⟨page.candles, page.snapshot.candleCount, page.nextCursor⟩

/-- What the reader of one snapshot under one limit answers to a cursor. -/
def readPages (snapshotId : String) (limit : Option JsDouble) (cursor : Option String) :
    Except MarketDataException (Page Candle String) :=
  (readDatasetSnapshot hash service ⟨snapshotId, cursor, limit⟩).map DatasetSnapshotPage.toPage

def captureLimit : JsDouble := .finite (.ofInt 1000 (by norm_num))

/-- The loop of `captureSnapshot`. `none` says that it goes on after the turns it was given. -/
def capturePages (snapshotId : String) :
    Nat → Option String → List Candle → Option (Except MarketDataException (List Candle))
  | turns, cursor, candles =>
    match cursor.filter (· ≠ "") with
    | none => some (.ok candles)
    | some text =>
      match turns with
      | 0 => none
      | turns + 1 =>
        match readDatasetSnapshot hash service ⟨snapshotId, some text, some captureLimit⟩ with
        | .error error => some (.error error)
        | .ok page => capturePages snapshotId turns page.nextCursor (candles ++ page.candles)

/-- The snapshot and the candles that a backtest copies. -/
def captureSnapshot (snapshotId : String) (turns : Nat) :
    Option (Except MarketDataException (DatasetSnapshotRef × List Candle)) :=
  match readDatasetSnapshot hash service ⟨snapshotId, none, some captureLimit⟩ with
  | .error error => some (.error error)
  | .ok first =>
    (capturePages hash service snapshotId turns first.nextCursor first.candles).map
      fun captured => captured.map fun candles => (first.snapshot, candles)

variable {hash service} {dataset : SealedDataset} {snapshotId : String} {limit : Option JsDouble}
  {size : Nat}

theorem validateLimit_pos (h : validateLimit limit = .ok size) : 0 < size := by
  cases limit with
  | none =>
    cases h
    decide
  | some limit =>
    cases limit with
    | finite limit =>
      simp only [validateLimit] at h
      split_ifs at h with hvalid
      cases h
      obtain ⟨-, hpos, -⟩ := hvalid
      have hnum := Rat.num_pos.mpr hpos
      omega
    | nan => cases h
    | infinity negative => cases h

theorem readDatasetSnapshot_eq (hdataset : findDataset hash service snapshotId = .ok dataset)
    (hlimit : validateLimit limit = .ok size) (cursor : Option String) :
    readDatasetSnapshot hash service ⟨snapshotId, cursor, limit⟩ =
      ((syntheticQuery dataset.snapshot size).decodeCursor cursor).map fun offset =>
        { snapshot := dataset.snapshot
          candles := (dataset.candles.drop offset).take size
          nextCursor :=
            if offset + size < dataset.candles.length then
              some ((syntheticQuery dataset.snapshot size).encodeCursor (offset + size))
            else none } := by
  simp only [readDatasetSnapshot, hdataset, hlimit, bind, Except.bind, pure, Except.pure]
  cases (syntheticQuery dataset.snapshot size).decodeCursor cursor <;> rfl

/-- The cursors of one snapshot under one limit lead to the offsets they carry. -/
theorem readPages_leadsOn (hdataset : findDataset hash service snapshotId = .ok dataset)
    (hlimit : validateLimit limit = .ok size) :
    LeadsOn (readPages hash service snapshotId limit) dataset.candles size
      dataset.snapshot.candleCount fun start cursor =>
        (syntheticQuery dataset.snapshot size).decodeCursor cursor = .ok start := by
  intro start cursor hstart
  refine ⟨_, by rw [readPages, readDatasetSnapshot_eq hdataset hlimit, hstart]; rfl, rfl, rfl, ?_⟩
  by_cases hmore : start + size < dataset.candles.length
  · rw [if_pos hmore]
    exact ⟨_, if_pos hmore,
      (CursorQuery.decodeCursor_encodeCursor _ _ _).trans (if_pos rfl)⟩
  · rw [if_neg hmore]
    exact if_neg hmore

/-- The cursors that a snapshot issues are those of its query. -/
theorem issued_cursor {page : DatasetSnapshotPage} {cursor : Option String} {after : String}
    (hdataset : findDataset hash service snapshotId = .ok dataset)
    (hlimit : validateLimit limit = .ok size)
    (hpage : readDatasetSnapshot hash service ⟨snapshotId, cursor, limit⟩ = .ok page)
    (hafter : page.nextCursor = some after) :
    ∃ offset, after = (syntheticQuery dataset.snapshot size).encodeCursor offset := by
  rw [readDatasetSnapshot_eq hdataset hlimit] at hpage
  cases hoffset : (syntheticQuery dataset.snapshot size).decodeCursor cursor with
  | error error =>
    rw [hoffset] at hpage
    cases hpage
  | ok offset =>
    rw [hoffset] at hpage
    cases hpage
    simp only [Option.ite_none_right_eq_some, Option.some.injEq] at hafter
    obtain ⟨-, rfl⟩ := hafter
    exact ⟨_, rfl⟩

theorem validateLimit_captureLimit : validateLimit (some captureLimit) = .ok 1000 := by
  decide

theorem readPages_eq_ok {cursor : Option String} {read : Page Candle String}
    (h : readPages hash service snapshotId limit cursor = .ok read) : ∃ page,
      readDatasetSnapshot hash service ⟨snapshotId, cursor, limit⟩ = .ok page ∧
        read = page.toPage := by
  rw [readPages] at h
  cases hpage : readDatasetSnapshot hash service ⟨snapshotId, cursor, limit⟩ with
  | error error =>
    rw [hpage] at h
    cases h
  | ok page =>
    rw [hpage] at h
    cases h
    exact ⟨page, rfl, rfl⟩

/-- The loop takes the pages that following the cursors meets. -/
theorem capturePages_followed (hdataset : findDataset hash service snapshotId = .ok dataset)
    {cursor : Option String} {pages : List (Page Candle String)}
    (hfollowed : Followed (readPages hash service snapshotId (some captureLimit)) cursor pages)
    {text : String} (hcursor : cursor = some text) (htext : text ≠ "") (candles : List Candle)
    {turns : Nat} (hturns : pages.length ≤ turns) :
    capturePages hash service snapshotId turns cursor candles =
      some (.ok (candles ++ pages.flatMap (·.items))) := by
  induction hfollowed generalizing text candles turns with
  | last hread hnone =>
    subst hcursor
    obtain ⟨turns, rfl⟩ : ∃ k, turns = k + 1 := ⟨turns - 1, by simp at hturns; omega⟩
    obtain ⟨page, hpage, rfl⟩ := readPages_eq_ok hread
    have hnext : page.nextCursor = none := hnone
    rw [capturePages, Option.filter_some, if_pos (decide_eq_true htext)]
    simp only [hpage, List.flatMap_singleton]
    rw [hnext, capturePages]
    rfl
  | next hread hsome hrest ih =>
    subst hcursor
    obtain ⟨turns, rfl⟩ : ∃ k, turns = k + 1 := ⟨turns - 1, by simp at hturns; omega⟩
    obtain ⟨page, hpage, rfl⟩ := readPages_eq_ok hread
    have hnext : page.nextCursor = some _ := hsome
    obtain ⟨offset, hissued⟩ := issued_cursor hdataset validateLimit_captureLimit hpage hnext
    rw [capturePages, Option.filter_some, if_pos (decide_eq_true htext)]
    simp only [hpage]
    rw [hnext, ih rfl (hissued ▸ cursorText_ne_empty _) _ (by simpa using hturns),
      List.flatMap_cons, List.append_assoc]
    rfl

/-- With turns enough the whole snapshot is copied. -/
theorem captureSnapshot_whole (hdataset : findDataset hash service snapshotId = .ok dataset) :
    ∃ enough, ∀ turns, enough ≤ turns → captureSnapshot hash service snapshotId turns =
      some (.ok (dataset.snapshot, dataset.candles)) := by
  obtain ⟨pages, hpages, hlossless⟩ :=
    (readPages_leadsOn hdataset validateLimit_captureLimit).all (by decide) rfl
  have hfollowed := (hpages pages).mpr rfl
  refine ⟨pages.length, fun turns hturns => ?_⟩
  have hread : ∀ page, readPages hash service snapshotId (some captureLimit) none = .ok page →
      ∃ first, readDatasetSnapshot hash service ⟨snapshotId, none, some captureLimit⟩ = .ok first ∧
        first.toPage = page ∧ first.snapshot = dataset.snapshot := by
    intro page hpage
    rw [readPages, readDatasetSnapshot_eq hdataset validateLimit_captureLimit] at hpage
    cases hpage
    exact ⟨_, readDatasetSnapshot_eq hdataset validateLimit_captureLimit none, rfl, rfl⟩
  have hitems := hlossless.items
  cases hfollowed with
  | last hpage hnone =>
    obtain ⟨first, hfirst, rfl, hsnapshot⟩ := hread _ hpage
    have hnext : first.nextCursor = none := hnone
    rw [List.flatMap_singleton] at hitems
    rw [captureSnapshot]
    simp only [hfirst]
    rw [hnext, capturePages, hsnapshot, ← hitems]
    rfl
  | next hpage hsome hrest =>
    obtain ⟨first, hfirst, rfl, hsnapshot⟩ := hread _ hpage
    have hnext : first.nextCursor = some _ := hsome
    obtain ⟨offset, hissued⟩ := issued_cursor hdataset validateLimit_captureLimit hfirst hnext
    rw [List.flatMap_cons] at hitems
    rw [captureSnapshot]
    simp only [hfirst]
    rw [hnext, capturePages_followed hdataset hrest rfl (hissued ▸ cursorText_ne_empty _) _
      (by simp at hturns; omega), hsnapshot, ← hitems]
    rfl

/-- A cursor is taken wherever the made-up query is the same. -/
theorem foreign_cursor {other : SealedDataset} {otherId : String} {otherLimit : Option JsDouble}
    {otherSize : Nat} (hother : findDataset hash service otherId = .ok other)
    (hlimit : validateLimit otherLimit = .ok otherSize) (offset : Nat) :
    readDatasetSnapshot hash service
        ⟨otherId, some ((syntheticQuery dataset.snapshot size).encodeCursor offset), otherLimit⟩ =
        .error CursorQuery.invalidCursor ↔
      dataset.snapshot.pair ≠ other.snapshot.pair ∨
        dataset.snapshot.timeframe ≠ other.snapshot.timeframe ∨ size ≠ otherSize := by
  have hbound : (syntheticQuery dataset.snapshot size).fingerprint =
      (syntheticQuery other.snapshot otherSize).fingerprint ↔
      dataset.snapshot.pair = other.snapshot.pair ∧
        dataset.snapshot.timeframe = other.snapshot.timeframe ∧ size = otherSize := by
    constructor
    · intro h
      obtain ⟨hpair, htimeframe, hsize⟩ := CursorQuery.fingerprint_parts rfl rfl h
      exact ⟨pair_eq_iff.mp hpair, timeframeText_inj htimeframe, hsize⟩
    · rintro ⟨hpair, htimeframe, hsize⟩
      rw [syntheticQuery, syntheticQuery, hpair, htimeframe, hsize]
  rw [readDatasetSnapshot_eq hother hlimit, CursorQuery.decodeCursor_encodeCursor]
  by_cases hsame : (syntheticQuery dataset.snapshot size).fingerprint =
      (syntheticQuery other.snapshot otherSize).fingerprint
  · rw [if_pos hsame]
    refine iff_of_false (fun h => nomatch h) ?_
    obtain ⟨hpair, htimeframe, hsize⟩ := hbound.mp hsame
    simp [hpair, htimeframe, hsize]
  · rw [if_neg hsame]
    refine iff_of_true rfl ?_
    by_contra hnot
    simp only [not_or, not_not] at hnot
    exact hsame (hbound.mpr hnot)

/-- Following the cursors of a snapshot gives its candles once and in order, and a capture copies
them. Its cursors are refused just by the readers of another pair, timeframe or limit. -/
theorem snapshot_cursor_rejected_iff (hash : String → String) {earlier later : DatasetService}
    {dataset other : SealedDataset} {snapshotId otherId : String}
    {limit otherLimit : Option JsDouble} {size otherSize : Nat}
    (hdataset : findDataset hash earlier snapshotId = .ok dataset)
    (hlimit : validateLimit limit = .ok size)
    (hother : findDataset hash later otherId = .ok other)
    (hotherLimit : validateLimit otherLimit = .ok otherSize) :
    (∃ pages, (∀ others, Followed (readPages hash earlier snapshotId limit) none others ↔
          others = pages) ∧
        Lossless size dataset.snapshot.candleCount dataset.candles pages) ∧
      (∃ enough, ∀ turns, enough ≤ turns → captureSnapshot hash earlier snapshotId turns =
        some (.ok (dataset.snapshot, dataset.candles))) ∧
      ∀ cursor page after,
        readDatasetSnapshot hash earlier ⟨snapshotId, cursor, limit⟩ = .ok page →
          page.nextCursor = some after →
            (readDatasetSnapshot hash later ⟨otherId, some after, otherLimit⟩ =
                .error CursorQuery.invalidCursor ↔
              dataset.snapshot.pair ≠ other.snapshot.pair ∨
                dataset.snapshot.timeframe ≠ other.snapshot.timeframe ∨ size ≠ otherSize) := by
  refine ⟨(readPages_leadsOn hdataset hlimit).all (validateLimit_pos hlimit) rfl,
    captureSnapshot_whole hdataset, fun cursor page after hpage hafter => ?_⟩
  obtain ⟨offset, rfl⟩ := issued_cursor hdataset hlimit hpage hafter
  exact foreign_cursor hother hotherLimit offset

def twoMinutesRange (minute : Fin 10000) : ValidRange .m1 where
  fromTime := minute.val * 60000
  toTime := (minute.val + 2) * 60000
  fromOnGrid := ⟨Int.mul_emod_left _ _, by simp only [maxTimeValue]; omega⟩
  toOnGrid := ⟨Int.mul_emod_left _ _, by simp only [maxTimeValue]; omega⟩
  nonempty := by omega

/-- The snapshot of a minute and the next. -/
def twoMinutes (id : String) (minute : Fin 10000) : SealedDataset where
  snapshot :=
    { id
      pair := btcUsdt
      pairMetadata := ⟨btcUsdt, "BTC", "USDT", "USDT"⟩
      timeframe := .m1
      range := twoMinutesRange minute
      candleCount := 2
      sha256 := SnapshotArguments.serialization ⟨btcUsdt, .m1, twoMinutesRange minute,
        [sampleCandle minute.castSucc, sampleCandle minute.succ]⟩
      createdAt := 600000000 }
  candles := [sampleCandle minute.castSucc, sampleCandle minute.succ]

def twoSnapshots : DatasetService where
  snapshots := ⟨[twoMinutes "first" 0, twoMinutes "second" 1], by decide⟩
  repository := none

def oneCandle : JsDouble := .finite (.ofInt 1 abs_one_lt)

theorem validateLimit_oneCandle : validateLimit (some oneCandle) = .ok 1 := by decide

theorem snapshot_cursor_rejected_iff_two :
    readDatasetSnapshot id twoSnapshots ⟨"second",
        some ((syntheticQuery (twoMinutes "first" 0).snapshot 1).encodeCursor 1), none⟩ =
      .error CursorQuery.invalidCursor :=
  ((snapshot_cursor_rejected_iff id
    (show findDataset id twoSnapshots "first" = .ok (twoMinutes "first" 0) from rfl)
    validateLimit_oneCandle
    (show findDataset id twoSnapshots "second" = .ok (twoMinutes "second" 1) from rfl)
    (show validateLimit none = .ok 1000 from rfl)).2.2 none _ _ rfl rfl).mpr
      (Or.inr (Or.inr (by decide)))

/-- The cursor of a snapshot is taken by the reader of another one of the same pair and timeframe,
and leads into its candles. -/
theorem foreign_snapshot_cursor_accepted :
    ¬ ∀ (hash : String → String) (service : DatasetService) (dataset other : SealedDataset)
        (snapshotId otherId : String) (limit : Option JsDouble) (size : Nat),
      findDataset hash service snapshotId = .ok dataset →
      findDataset hash service otherId = .ok other → dataset.snapshot ≠ other.snapshot →
      validateLimit limit = .ok size →
      ∀ cursor page after,
        readDatasetSnapshot hash service ⟨snapshotId, cursor, limit⟩ = .ok page →
          page.nextCursor = some after →
            readDatasetSnapshot hash service ⟨otherId, some after, limit⟩ =
              .error CursorQuery.invalidCursor := by
  intro h
  have hdiffer : (twoMinutes "first" 0).snapshot ≠ (twoMinutes "second" 1).snapshot := by
    intro heq
    have hid := congrArg DatasetSnapshotRef.id heq
    exact absurd hid (by decide)
  have hrefused := h id twoSnapshots (twoMinutes "first" 0) (twoMinutes "second" 1) "first" "second"
    (some oneCandle) 1 rfl rfl hdiffer validateLimit_oneCandle none _ _ rfl rfl
  have hsame := (foreign_cursor rfl validateLimit_oneCandle 1).mp hrefused
  revert hsame
  decide

end Reading

end Cryptox.MarketData
