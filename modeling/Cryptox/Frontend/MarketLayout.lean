import Cryptox.Library.GuardedSystem
import Cryptox.Library.JsonAccess
import Cryptox.Library.Numeral
import Cryptox.MarketData.Rules
import Mathlib.Data.List.Perm.Subperm

/-!
# The layout of the market screen

Charts are added, changed and removed; the layout is written to the storage of the browser as JSON,
and read from it when the application starts. Whatever text is found there, the layout is valid.
-/
namespace Cryptox.Frontend

open Cryptox.Backtesting (Timeframe)
open Cryptox.Library
open Cryptox.MarketData (Pair isPair timeframeText timeframes)

structure ChartPanelState where
  id : String
  pair : String
  timeframe : Timeframe
deriving DecidableEq, Repr

structure MarketLayoutState where
  panels : List ChartPanelState
  realtimeEnabled : Bool
  selectedPair : String
  primaryPanelId : Option String
deriving DecidableEq, Repr

def defaultMarketLayout : MarketLayoutState := ⟨[], true, "BTCUSDT", none⟩

abbrev StoredValue := JsonValue DecimalNumber

def marketLayoutVersion : DecimalNumber := .ofScaled 2 0

/-- `/^chart-[1-9][0-9]*$/` -/
def validPanelId (value : String) : Bool :=
  match value.toList.dropPrefix? "chart-".toList with
  | some (first :: rest) => first.isDigit && first != '0' && rest.all Char.isDigit
  | _ => false

def asTimeframe (value : String) : Option Timeframe :=
  timeframes.find? fun timeframe => timeframeText timeframe == value

def readPanel (value : StoredValue) : Option ChartPanelState := do
  let id ← (← value.field? "id").text?
  let pair ← (← value.field? "pair").text?
  let timeframe ← asTimeframe (← (← value.field? "timeframe").text?)
  if validPanelId id && isPair pair then some ⟨id, pair, timeframe⟩ else none

def validateMarketLayout (value : StoredValue) : Option MarketLayoutState := do
  let version ← (← value.field? "version").number?
  let items ← (← value.field? "panels").array?
  let realtimeEnabled ← (← value.field? "realtimeEnabled").bool?
  let selectedPair ← (← value.field? "selectedPair").text?
  let panels ← items.mapM readPanel
  if version = marketLayoutVersion ∧ items.length ≤ 4 ∧ isPair selectedPair = true ∧
      (panels.map ChartPanelState.id).Nodup then
    some ⟨panels, realtimeEnabled, selectedPair, (value.field? "primaryPanelId").bind JsonValue.text?⟩
  else none

def ChartPanelState.value (panel : ChartPanelState) : StoredValue :=
  .object [("id".toList, .text panel.id.toList), ("pair".toList, .text panel.pair.toList),
    ("timeframe".toList, .text (timeframeText panel.timeframe).toList)]

def MarketLayoutState.value (layout : MarketLayoutState) : StoredValue :=
  .object ([("version".toList, .number marketLayoutVersion),
    ("panels".toList, .array (layout.panels.map ChartPanelState.value)),
    ("realtimeEnabled".toList, .bool layout.realtimeEnabled),
    ("selectedPair".toList, .text layout.selectedPair.toList)] ++
    layout.primaryPanelId.toList.map fun id => ("primaryPanelId".toList, .text id.toList))

def readMarketLayout (stored : Option (List Char)) : MarketLayoutState :=
  ((JsonValue.parse DecimalNumber.format (stored.getD [])).bind validateMarketLayout).getD
    defaultMarketLayout

/-- The text that is stored of a layout. -/
def persistMarketLayout (layout : MarketLayoutState) : List Char :=
  JsonValue.print DecimalNumber.format
    ((validateMarketLayout layout.value).getD defaultMarketLayout).value

def chartId (number : Nat) : String := "chart-" ++ toString number

/-- The loop counts up while the id is used. -/
def nextChartIdFrom (used : List String) : Nat → Nat → String
  | 0, number => chartId number
  | fuel + 1, number =>
    if chartId number ∈ used then nextChartIdFrom used fuel (number + 1) else chartId number

def nextChartId (panels : List ChartPanelState) : String :=
  nextChartIdFrom (panels.map ChartPanelState.id) panels.length 1

def addMarketPanel (layout : MarketLayoutState) (pair : String) (timeframe : Timeframe) :
    Option MarketLayoutState :=
  if 4 ≤ layout.panels.length ∨ isPair pair = false then none
  else some { layout with
    selectedPair := pair
    panels := layout.panels ++ [⟨nextChartId layout.panels, pair, timeframe⟩] }

structure MarketCapabilities where
  pairs : List Pair
  timeframes : List Timeframe

/-- The screen, the storage, and the layout that was last stored. -/
structure MarketView where
  layout : MarketLayoutState
  capabilities : Option MarketCapabilities
  stored : Option (List Char)
  saved : Option MarketLayoutState

inductive MarketAction where
  | capabilities (data : MarketCapabilities)
  | updatePrimary (pair : String) (timeframe : Timeframe)
  | updatePanel (id pair : String) (timeframe : Timeframe)
  | removePanel (id : String)
  | addChart
  | toggleRealtime
  | selectPrimary (id : String)
  | persist (available : Bool)
  | remount
  | reload

namespace MarketView

def mount (stored : Option (List Char)) : MarketView := ⟨readMarketLayout stored, none, stored, none⟩

def primary (w : MarketView) : ChartPanelState :=
  ((w.layout.panels.find? fun panel => some panel.id = w.layout.primaryPanelId).or
    w.layout.panels.head?).getD ⟨"chart-1", w.layout.selectedPair, .m1⟩

/-- The pairs and timeframes that a chart offers. -/
def Offered (w : MarketView) (panel : ChartPanelState) (pair : String) (timeframe : Timeframe) :
    Prop :=
  (pair = panel.pair ∨ ∃ data ∈ w.capabilities, ∃ offered ∈ data.pairs, pair = offered.text) ∧
    (timeframe = panel.timeframe ∨ ∃ data ∈ w.capabilities, timeframe ∈ data.timeframes)

def stale (data : MarketCapabilities) (panel : ChartPanelState) : Bool :=
  !(data.pairs.map Pair.text).contains panel.pair || !data.timeframes.contains panel.timeframe

/-- A chart that cannot be shown takes the screen back to its defaults. -/
def settled (capabilities : Option MarketCapabilities) (layout : MarketLayoutState) :
    MarketLayoutState :=
  match capabilities with
  | none => layout
  | some data =>
    if data.pairs.isEmpty || data.timeframes.isEmpty then layout
    else if layout.panels.any (stale data) then defaultMarketLayout else layout

def display (w : MarketView) (layout : MarketLayoutState) : MarketView :=
  { w with layout := settled w.capabilities layout }

def updatePanel (layout : MarketLayoutState) (id pair : String) (timeframe : Timeframe) :
    MarketLayoutState :=
  { layout with panels := layout.panels.map fun item =>
      if item.id = id then { item with pair, timeframe } else item }

def updatePrimary (w : MarketView) (pair : String) (timeframe : Timeframe) : MarketLayoutState :=
  if w.layout.panels.isEmpty then
    { w.layout with selectedPair := pair, panels := [⟨"chart-1", pair, timeframe⟩] }
  else updatePanel w.layout w.primary.id pair timeframe

def removePanel (layout : MarketLayoutState) (id : String) : MarketLayoutState :=
  let nextPanels := layout.panels.filter fun item => item.id ≠ id
  if nextPanels.isEmpty || layout.panels.length ≤ 1 then layout
  else { layout with panels := nextPanels }

/-- The first timeframe that no chart shows, or else the first one. -/
def nextTimeframe (w : MarketView) : Timeframe :=
  let available : List Timeframe := match w.capabilities with
    | some data => if data.timeframes.isEmpty then [.m1, .m5, .m15, .h1] else data.timeframes
    | none => [.m1, .m5, .m15, .h1]
  ((available.find? fun timeframe =>
    !(w.layout.panels.map ChartPanelState.timeframe).contains timeframe).or
      available.head?).getD .m1

def enabled (w : MarketView) : MarketAction → Prop
  | .updatePrimary pair timeframe => w.Offered w.primary pair timeframe
  | .updatePanel id pair timeframe => ∃ panel ∈ w.layout.panels, panel.id = id ∧
      w.Offered panel pair timeframe
  | .removePanel id | .selectPrimary id => ∃ panel ∈ w.layout.panels, panel.id = id
  | .capabilities _ | .addChart | .toggleRealtime | .persist _ | .remount | .reload => True

def next (w : MarketView) : MarketAction → MarketView
  | .capabilities data => { w with capabilities := some data }.display w.layout
  | .updatePrimary pair timeframe => w.display (w.updatePrimary pair timeframe)
  | .updatePanel id pair timeframe => w.display (updatePanel w.layout id pair timeframe)
  | .removePanel id => w.display (removePanel w.layout id)
  | .addChart =>
    w.display ((addMarketPanel w.layout w.layout.selectedPair w.nextTimeframe).getD w.layout)
  | .toggleRealtime => w.display { w.layout with realtimeEnabled := !w.layout.realtimeEnabled }
  | .selectPrimary id => w.display { w.layout with primaryPanelId := some id }
  | .persist available =>
    if available then
      { w with stored := some (persistMarketLayout w.layout), saved := some w.layout }
    else w
  | .remount => { w with capabilities := none }
  | .reload => { mount w.stored with saved := w.saved }

def system : GuardedSystem MarketView MarketAction := ⟨enabled, next⟩

end MarketView

/-- At most four charts, told apart by their ids. -/
structure MarketLayoutState.Valid (layout : MarketLayoutState) : Prop where
  few : layout.panels.length ≤ 4
  panels : ∀ panel ∈ layout.panels, validPanelId panel.id = true ∧ isPair panel.pair = true
  distinct : (layout.panels.map ChartPanelState.id).Nodup
  selected : isPair layout.selectedPair = true

section Storage

theorem valid_default : defaultMarketLayout.Valid := ⟨by decide, nofun, List.nodup_nil, by decide⟩

theorem asTimeframe_text (timeframe : Timeframe) :
    asTimeframe (timeframeText timeframe) = some timeframe := by
  cases timeframe <;> decide

theorem readPanel_value {panel : ChartPanelState} (hid : validPanelId panel.id = true)
    (hpair : isPair panel.pair = true) : readPanel panel.value = some panel := by
  have hidField : panel.value.field? "id" = some (.text panel.id.toList) := rfl
  have hpairField : panel.value.field? "pair" = some (.text panel.pair.toList) := rfl
  have htimeframe : panel.value.field? "timeframe" =
      some (.text (timeframeText panel.timeframe).toList) := rfl
  simp only [readPanel, hidField, hpairField, htimeframe, JsonValue.text?_text, asTimeframe_text,
    Option.bind_eq_bind, Option.bind_some, hid, hpair, Bool.and_self, if_true]

theorem readPanel_valid {value : StoredValue} {panel : ChartPanelState}
    (h : readPanel value = some panel) :
    validPanelId panel.id = true ∧ isPair panel.pair = true := by
  simp only [readPanel, Option.bind_eq_bind, Option.bind_eq_some_iff] at h
  obtain ⟨_, -, id, -, _, -, pair, -, _, -, _, -, timeframe, -, h⟩ := h
  split at h
  next hboth =>
    cases h
    exact Bool.and_eq_true_iff.mp hboth
  next => cases h

theorem validateMarketLayout_valid {value : StoredValue} {layout : MarketLayoutState}
    (h : validateMarketLayout value = some layout) : layout.Valid := by
  simp only [validateMarketLayout, Option.bind_eq_bind, Option.bind_eq_some_iff] at h
  obtain ⟨_, -, version, -, _, -, items, -, _, -, realtimeEnabled, -, _, -, selectedPair, -, panels,
    hpanels, h⟩ := h
  split at h
  next hchecks =>
    cases h
    obtain ⟨-, hfew, hpair, hdistinct⟩ := hchecks
    have hread := mapM_eq_some.mp hpanels
    refine ⟨hread.length_eq ▸ hfew, fun panel hpanel => ?_, hdistinct, hpair⟩
    obtain ⟨item, -, hitem⟩ := exists_of_mem_read hread hpanel
    exact readPanel_valid hitem
  next => cases h

theorem validateMarketLayout_value {layout : MarketLayoutState} (h : layout.Valid) :
    validateMarketLayout layout.value = some layout := by
  have hversion : layout.value.field? "version" = some (.number marketLayoutVersion) := by
    cases hprimary : layout.primaryPanelId <;> simp only [MarketLayoutState.value, hprimary] <;> rfl
  have hpanels : layout.value.field? "panels" =
      some (.array (layout.panels.map ChartPanelState.value)) := by
    cases hprimary : layout.primaryPanelId <;> simp only [MarketLayoutState.value, hprimary] <;> rfl
  have hrealtime : layout.value.field? "realtimeEnabled" = some (.bool layout.realtimeEnabled) := by
    cases hprimary : layout.primaryPanelId <;> simp only [MarketLayoutState.value, hprimary] <;> rfl
  have hselected : layout.value.field? "selectedPair" = some (.text layout.selectedPair.toList) := by
    cases hprimary : layout.primaryPanelId <;> simp only [MarketLayoutState.value, hprimary] <;> rfl
  have hprimaryPanel : (layout.value.field? "primaryPanelId").bind JsonValue.text? =
      layout.primaryPanelId := by
    cases hprimary : layout.primaryPanelId with
    | none =>
      simp only [MarketLayoutState.value, hprimary]
      rfl
    | some id =>
      simp only [MarketLayoutState.value, hprimary]
      exact @JsonValue.text?_text DecimalNumber id
  have hread : (layout.panels.map ChartPanelState.value).mapM readPanel = some layout.panels := by
    rw [mapM_eq_some, List.forall₂_map_left_iff]
    refine List.forall₂_same.mpr fun panel hpanel => ?_
    obtain ⟨hid, hpair⟩ := h.panels panel hpanel
    exact readPanel_value hid hpair
  simp only [validateMarketLayout, hversion, hpanels, hrealtime, hselected, Option.bind_eq_bind,
    Option.bind_some, JsonValue.number?_number, JsonValue.array?_array, JsonValue.bool?_bool,
    JsonValue.text?_text, hread, hprimaryPanel, List.length_map]
  exact if_pos ⟨trivial, h.few, h.selected, h.distinct⟩

theorem valid_readMarketLayout (stored : Option (List Char)) : (readMarketLayout stored).Valid := by
  unfold readMarketLayout
  cases hread : (JsonValue.parse DecimalNumber.format (stored.getD [])).bind validateMarketLayout with
  | none => exact valid_default
  | some layout =>
    obtain ⟨value, -, hvalue⟩ := Option.bind_eq_some_iff.mp hread
    exact validateMarketLayout_valid hvalue

/-- A valid layout is read back as it was stored. -/
theorem readMarketLayout_persistMarketLayout {layout : MarketLayoutState} (h : layout.Valid) :
    readMarketLayout (some (persistMarketLayout layout)) = layout := by
  rw [persistMarketLayout, validateMarketLayout_value h, readMarketLayout, Option.getD_some,
    Option.getD_some, JsonValue.parse_print, Option.bind_some, validateMarketLayout_value h,
    Option.getD_some]

end Storage

section Charts

theorem chartId_inj {m n : Nat} (h : chartId m = chartId n) : m = n := by
  have htexts := congrArg String.toList h
  rw [chartId, chartId, String.toList_append, String.toList_append,
    List.append_cancel_left_eq] at htexts
  have hdigits : Nat.toDigits 10 m = Nat.toDigits 10 n := by
    have hm : (toString m).toList = Nat.toDigits 10 m := String.toList_ofList
    have hn : (toString n).toList = Nat.toDigits 10 n := String.toList_ofList
    rwa [hm, hn] at htexts
  rw [← @Nat.ofDigitChars_ten_toDigits m, hdigits, Nat.ofDigitChars_ten_toDigits]

/-- The loop ends at the first number it tries whose id is not used, or else at the last. -/
theorem nextChartIdFrom_spec (used : List String) (fuel number : Nat) :
    ∃ k ≤ fuel, nextChartIdFrom used fuel number = chartId (number + k) ∧
      (∀ j < k, chartId (number + j) ∈ used) ∧ (k < fuel → chartId (number + k) ∉ used) := by
  induction fuel generalizing number with
  | zero => exact ⟨0, le_rfl, rfl, fun j hj => absurd hj (Nat.not_lt_zero j),
      fun h => absurd h (Nat.lt_irrefl 0)⟩
  | succ fuel ih =>
    rw [nextChartIdFrom]
    by_cases hused : chartId number ∈ used
    · obtain ⟨k, hk, hresult, htried, hfree⟩ := ih (number + 1)
      have hplace : ∀ j, number + 1 + j = number + (j + 1) := by omega
      refine ⟨k + 1, Nat.succ_le_succ hk, ?_, fun j hj => ?_, fun hlt => ?_⟩
      · rw [if_pos hused, hresult, hplace]
      · cases j with
        | zero => exact hused
        | succ j =>
          rw [← hplace]
          exact htried j (Nat.lt_of_succ_lt_succ hj)
      · rw [← hplace]
        exact hfree (Nat.lt_of_succ_lt_succ hlt)
    · exact ⟨0, Nat.zero_le _, if_neg hused, fun j hj => absurd hj (Nat.not_lt_zero j), fun _ => hused⟩

/-- The id of a new chart is new, and its number is at most one more than there are charts. -/
theorem nextChartId_spec (panels : List ChartPanelState) :
    ∃ number, 0 < number ∧ number ≤ panels.length + 1 ∧ nextChartId panels = chartId number ∧
      nextChartId panels ∉ panels.map ChartPanelState.id := by
  obtain ⟨k, hk, hresult, htried, hfree⟩ :=
    nextChartIdFrom_spec (panels.map ChartPanelState.id) panels.length 1
  have hid : nextChartId panels = chartId (1 + k) := hresult
  refine ⟨1 + k, by omega, by omega, hid, fun hmem => ?_⟩
  rw [hid] at hmem
  have hlast : k = panels.length := by
    by_contra hne
    exact hfree (by omega) hmem
  -- one id more than there are charts would be used
  have hnodup : ((List.range (k + 1)).map fun j => chartId (1 + j)).Nodup := by
    refine List.Nodup.map_on (fun i _ j _ heq => ?_) List.nodup_range
    have hinj := chartId_inj heq
    omega
  have hsubset : ((List.range (k + 1)).map fun j => chartId (1 + j)) ⊆
      panels.map ChartPanelState.id := by
    intro id hid
    obtain ⟨j, hj, rfl⟩ := List.mem_map.mp hid
    rcases Nat.lt_succ_iff_lt_or_eq.mp (List.mem_range.mp hj) with hlt | rfl
    · exact htried j hlt
    · exact hmem
  have hlength := (hnodup.subperm hsubset).length_le
  simp only [List.length_map, List.length_range] at hlength
  omega

theorem validPanelId_chartId {number : Nat} (hpos : 0 < number) (hfew : number ≤ 4) :
    validPanelId (chartId number) = true := by
  have hnumber : number = 1 ∨ number = 2 ∨ number = 3 ∨ number = 4 := by omega
  rcases hnumber with rfl | rfl | rfl | rfl <;> decide

theorem valid_addMarketPanel {layout added : MarketLayoutState} {pair : String}
    {timeframe : Timeframe} (h : layout.Valid)
    (hadd : addMarketPanel layout pair timeframe = some added) : added.Valid := by
  unfold addMarketPanel at hadd
  split at hadd
  next => cases hadd
  next hroom =>
    cases hadd
    rw [not_or, Bool.not_eq_false] at hroom
    obtain ⟨number, hpos, hle, hid, hnew⟩ := nextChartId_spec layout.panels
    constructor
    case few =>
      rw [List.length_append, List.length_singleton]
      omega
    case panels =>
      intro panel hpanel
      rcases List.mem_append.mp hpanel with hold | hadded
      · exact h.panels panel hold
      · rw [List.mem_singleton.mp hadded]
        exact ⟨hid ▸ validPanelId_chartId hpos (by omega), hroom.2⟩
    case distinct =>
      rw [List.map_append, List.nodup_append]
      refine ⟨h.distinct, List.nodup_singleton _, ?_⟩
      intro id hid' other hother
      have hother : other = nextChartId layout.panels := List.mem_singleton.mp hother
      rintro rfl
      exact hnew (hother ▸ hid')
    case selected => exact hroom.2

end Charts

namespace MarketView

variable {w : MarketView}

theorem valid_settled (capabilities : Option MarketCapabilities) {layout : MarketLayoutState}
    (h : layout.Valid) : (settled capabilities layout).Valid := by
  unfold settled
  split
  · exact h
  · split
    · exact h
    · split
      · exact valid_default
      · exact h

theorem valid_updatePanel {layout : MarketLayoutState} (h : layout.Valid) (id : String)
    {pair : String} (hpair : isPair pair = true) (timeframe : Timeframe) :
    (updatePanel layout id pair timeframe).Valid := by
  have hids : ((updatePanel layout id pair timeframe).panels.map ChartPanelState.id) =
      layout.panels.map ChartPanelState.id := by
    rw [updatePanel, List.map_map]
    refine List.map_congr_left fun panel _ => ?_
    by_cases heq : panel.id = id <;> simp [heq]
  refine ⟨(List.length_map _).trans_le h.few, fun panel hpanel => ?_, hids ▸ h.distinct, h.selected⟩
  obtain ⟨item, hitem, rfl⟩ := List.mem_map.mp hpanel
  obtain ⟨hid, hold⟩ := h.panels item hitem
  split
  · exact ⟨hid, hpair⟩
  · exact ⟨hid, hold⟩

theorem primary_cases (w : MarketView) :
    w.primary ∈ w.layout.panels ∨ w.primary.pair = w.layout.selectedPair := by
  unfold primary
  cases hfound : w.layout.panels.find? fun panel => some panel.id = w.layout.primaryPanelId with
  | some panel => exact .inl (List.mem_of_find?_eq_some hfound)
  | none =>
    cases hpanels : w.layout.panels with
    | nil => exact .inr rfl
    | cons panel panels => exact .inl List.mem_cons_self

theorem valid_offered {panel : ChartPanelState} {pair : String} {timeframe : Timeframe}
    (hpanel : isPair panel.pair = true) (h : w.Offered panel pair timeframe) :
    isPair pair = true := by
  rcases h.1 with rfl | ⟨data, -, offered, -, rfl⟩
  · exact hpanel
  · exact offered.valid

theorem valid_primary (h : w.layout.Valid) : isPair w.primary.pair = true := by
  rcases primary_cases w with hmem | hselected
  · exact (h.panels _ hmem).2
  · rw [hselected]
    exact h.selected

theorem valid_removePanel {layout : MarketLayoutState} (h : layout.Valid) (id : String) :
    (removePanel layout id).Valid := by
  simp only [removePanel]
  split
  · exact h
  · have hsublist : (layout.panels.filter fun item => item.id ≠ id).Sublist layout.panels :=
      List.filter_sublist
    exact ⟨hsublist.length_le.trans h.few, fun panel hpanel => h.panels panel (hsublist.subset hpanel),
      h.distinct.sublist (hsublist.map _), h.selected⟩

theorem valid_updatePrimary (h : w.layout.Valid) {pair : String} (hpair : isPair pair = true)
    (timeframe : Timeframe) : (w.updatePrimary pair timeframe).Valid := by
  unfold updatePrimary
  split
  · refine ⟨by simp, fun panel hpanel => ?_, List.nodup_singleton _, hpair⟩
    rw [List.mem_singleton.mp hpanel]
    have hid : validPanelId "chart-1" = true := by decide
    exact ⟨hid, hpair⟩
  · exact valid_updatePanel h _ hpair timeframe

theorem valid_next (action : MarketAction) (h : w.layout.Valid) (henabled : enabled w action) :
    (next w action).layout.Valid := by
  cases action with
  | capabilities data =>
    show (settled (some data) w.layout).Valid
    exact valid_settled _ h
  | updatePrimary pair timeframe =>
    exact valid_settled _ (valid_updatePrimary h (valid_offered (valid_primary h) henabled) timeframe)
  | updatePanel id pair timeframe =>
    obtain ⟨panel, hpanel, -, hoffered⟩ := henabled
    exact valid_settled _
      (valid_updatePanel h id (valid_offered (h.panels panel hpanel).2 hoffered) timeframe)
  | removePanel id => exact valid_settled _ (valid_removePanel h id)
  | addChart =>
    refine valid_settled _ ?_
    cases hadd : addMarketPanel w.layout w.layout.selectedPair w.nextTimeframe with
    | none => exact h
    | some added => exact valid_addMarketPanel h hadd
  | toggleRealtime => exact valid_settled _ ⟨h.few, h.panels, h.distinct, h.selected⟩
  | selectPrimary id => exact valid_settled _ ⟨h.few, h.panels, h.distinct, h.selected⟩
  | persist available =>
    cases available with
    | false => exact h
    | true => exact h
  | remount => exact h
  | reload => exact valid_readMarketLayout w.stored

/-- What was stored last is read back. -/
theorem saved_next (action : MarketAction) (h : w.layout.Valid)
    (hsaved : ∀ layout ∈ w.saved, readMarketLayout w.stored = layout) :
    ∀ layout ∈ (next w action).saved, readMarketLayout (next w action).stored = layout := by
  cases action with
  | persist available =>
    cases available with
    | false => exact hsaved
    | true =>
      intro layout hlayout
      cases hlayout
      exact readMarketLayout_persistMarketLayout h
  | capabilities | updatePrimary | updatePanel | removePanel | addChart | toggleRealtime
  | selectPrimary | remount | reload => exact hsaved

end MarketView

/-- Whatever is stored, and in every run from there, the layout is valid, so that storing it and
reading it again changes nothing, and a layout that was stored is what is read next. -/
theorem market_layout_kept (stored : Option (List Char)) (actions : List MarketAction)
    (h : MarketView.system.Legal (fun _ _ => True) (.mount stored) actions) :
    (MarketView.system.run (.mount stored) actions).layout.Valid ∧
      readMarketLayout
          (some (persistMarketLayout (MarketView.system.run (.mount stored) actions).layout)) =
        (MarketView.system.run (.mount stored) actions).layout ∧
      ∀ layout ∈ (MarketView.system.run (.mount stored) actions).saved,
        readMarketLayout (MarketView.system.run (.mount stored) actions).stored = layout := by
  have hrun := h.invariant
    (fun w => w.layout.Valid ∧ ∀ layout ∈ w.saved, readMarketLayout w.stored = layout)
    (fun w action hw henabled _ =>
      ⟨MarketView.valid_next action hw.1 henabled, MarketView.saved_next action hw.1 hw.2⟩)
    ⟨valid_readMarketLayout stored, nofun⟩
  exact ⟨hrun.1, readMarketLayout_persistMarketLayout hrun.1, hrun.2⟩

theorem market_layout_kept_two_charts :
    let w := MarketView.system.run (.mount none) [.addChart, .addChart, .persist true, .reload]
    w.layout.panels.map ChartPanelState.id = ["chart-1", "chart-2"] ∧ w.layout.Valid :=
  ⟨by decide +kernel, (market_layout_kept none [.addChart, .addChart, .persist true, .reload]
    ⟨⟨trivial, trivial⟩, ⟨trivial, trivial⟩, ⟨trivial, trivial⟩, ⟨trivial, trivial⟩, trivial⟩).1⟩

end Cryptox.Frontend
