import Cryptox.Library.Comparators
import Cryptox.Library.Table
import Mathlib.Data.List.Induction
import Mathlib.Data.String.Basic

/-!
# The live history of a chart

`mergeCandle` of the frontend state. The candles that a chart receives are folded into its history
one by one, in any order: forming ones, closed ones, late ones and repeated ones.
-/
namespace Cryptox.Frontend

open Cryptox.Library

/-- What is read of a candle. -/
class UiCandle (T : Type) where
  timestamp : T → String
  isClosed : T → Bool

open UiCandle

variable {T : Type} [UiCandle T]

def replacement (current incoming : T) : T :=
  if isClosed current && !isClosed incoming then current else incoming

def mergeCandle (localeCompare : String → String → Ordering) (history : List T) (incoming : T) :
    List T :=
  match history.findIdx? fun candle => timestamp candle = timestamp incoming with
  | none =>
    sortWith (fun left right => localeCompare (timestamp left) (timestamp right))
      (history ++ [incoming])
  | some index =>
    history.mapIdx fun candleIndex candle =>
      if candleIndex = index then replacement candle incoming else candle

/-- The text of `toISOString`, the years being those of four digits. -/
def isCanonicalTimestamp (text : String) : Bool :=
  let shape := "0000-00-00T00:00:00.000Z".toList
  text.toList.length == shape.length &&
    (text.toList.zip shape).all fun (char, place) =>
      if place = '0' then char.isDigit else char == place

/-- The last closed candle received for a timestamp, or the last one if none was closed. -/
def kept (time : String) (received : List T) : Option T :=
  (received.filter fun candle => timestamp candle = time && isClosed candle).getLast?.or
    (received.filter fun candle => timestamp candle = time).getLast?

section Replacement

theorem timestamp_replacement {current incoming : T} (h : timestamp current = timestamp incoming) :
    timestamp (replacement current incoming) = timestamp incoming := by
  unfold replacement
  split
  · exact h
  · rfl

theorem kept_spec {time : String} {received : List T} {candle : T}
    (h : kept time received = some candle) : candle ∈ received ∧ timestamp candle = time := by
  rcases Option.or_eq_some_iff.mp h with hlast | ⟨-, hlast⟩
  · have hmem := List.mem_filter.mp (List.mem_of_getLast? hlast)
    simp only [Bool.and_eq_true, decide_eq_true_eq] at hmem
    exact ⟨hmem.1, hmem.2.1⟩
  · have hmem := List.mem_filter.mp (List.mem_of_getLast? hlast)
    exact ⟨hmem.1, of_decide_eq_true hmem.2⟩

theorem kept_concat_of_ne {time : String} {incoming : T} (h : timestamp incoming ≠ time)
    (received : List T) : kept time (received ++ [incoming]) = kept time received := by
  simp [kept, List.filter_append, h]

/-- A forming candle takes the place of forming ones only, a closed one that of any. -/
theorem kept_concat (received : List T) (incoming : T) :
    kept (timestamp incoming) (received ++ [incoming]) =
      some (((kept (timestamp incoming) received).map (replacement · incoming)).getD incoming) := by
  cases hincoming : isClosed incoming with
  | true =>
    have hreplaced : ∀ current : T, replacement current incoming = incoming := by
      intro current
      simp [replacement, hincoming]
    have hkept : kept (timestamp incoming) (received ++ [incoming]) = some incoming := by
      simp [kept, List.filter_append, hincoming]
    rw [hkept]
    cases kept (timestamp incoming) received with
    | none => rfl
    | some current => rw [Option.map_some, Option.getD_some, hreplaced]
  | false =>
    have hkept : kept (timestamp incoming) (received ++ [incoming]) =
        (received.filter fun candle =>
          timestamp candle = timestamp incoming && isClosed candle).getLast?.or
          (some incoming) := by
      simp [kept, List.filter_append, hincoming]
    rw [hkept, kept]
    cases hlast : (received.filter fun candle =>
        timestamp candle = timestamp incoming && isClosed candle).getLast? with
    | some current =>
      have hclosed : isClosed current = true := by
        have hmem := List.mem_filter.mp (List.mem_of_getLast? hlast)
        simp only [Bool.and_eq_true] at hmem
        exact hmem.2.2
      simp [replacement, hclosed, hincoming]
    | none =>
      have hforming := List.filter_eq_nil_iff.mp (List.getLast?_eq_none_iff.mp hlast)
      rw [Option.none_or, Option.none_or]
      cases hany : (received.filter fun candle =>
          timestamp candle = timestamp incoming).getLast? with
      | none => rfl
      | some current =>
        have hmem := List.mem_filter.mp (List.mem_of_getLast? hany)
        have hopen : isClosed current = false := by
          have hnot := hforming current hmem.1
          rw [hmem.2, Bool.true_and] at hnot
          exact Bool.eq_false_iff.mpr hnot
        simp [replacement, hopen]

end Replacement

/-- What a history is once the candles were received. -/
structure Merged (received history : List T) : Prop where
  increasing : (history.map timestamp).Pairwise (· < ·)
  found : ∀ time, (history.find? fun candle => timestamp candle = time) = kept time received

section Step

variable {received history : List T} {incoming : T}

theorem Merged.nodup (h : Merged received history) : (history.map timestamp).Nodup :=
  h.increasing.imp fun hlt => ne_of_lt hlt

theorem find?_eq_some_iff_mem (h : (history.map timestamp).Nodup) {time : String} {candle : T} :
    (history.find? fun candle => timestamp candle = time) = some candle ↔
      candle ∈ history ∧ timestamp candle = time := by
  constructor
  · intro hfind
    exact ⟨List.mem_of_find?_eq_some hfind, by simpa using List.find?_some hfind⟩
  · rintro ⟨hmem, rfl⟩
    exact Table.get?_of_mem_rows (t := ⟨history, h⟩) hmem

theorem find?_eq_of_perm {other : List T} (h : (history.map timestamp).Nodup)
    (hperm : other.Perm history) (time : String) :
    (other.find? fun candle => timestamp candle = time) =
      history.find? fun candle => timestamp candle = time := by
  have hother : (other.map timestamp).Nodup := (hperm.map timestamp).nodup_iff.mpr h
  refine Option.ext fun candle => ?_
  rw [find?_eq_some_iff_mem hother, find?_eq_some_iff_mem h, hperm.mem_iff]

theorem Merged.received_of_mem (h : Merged received history) {candle : T}
    (hmem : candle ∈ history) : candle ∈ received := by
  have hfind := (find?_eq_some_iff_mem h.nodup).mpr ⟨hmem, rfl⟩
  rw [h.found] at hfind
  exact (kept_spec hfind).1

/-- Replacing at the index of a timestamp is replacing the candle of that timestamp. -/
theorem mapIdx_replacement (h : (history.map timestamp).Nodup) {index : Nat}
    (hindex : (history.findIdx? fun candle => timestamp candle = timestamp incoming) =
      some index) :
    (history.mapIdx fun candleIndex candle =>
      if candleIndex = index then replacement candle incoming else candle) =
      history.map fun candle =>
        if timestamp candle = timestamp incoming then replacement candle incoming else candle := by
  obtain ⟨hlt, hat, -⟩ := List.findIdx?_eq_some_iff_getElem.mp hindex
  have htime : timestamp history[index] = timestamp incoming := of_decide_eq_true hat
  refine List.ext_getElem (by simp) fun i hi _ => ?_
  have hlen : i < history.length := by simpa using hi
  rw [List.getElem_mapIdx, List.getElem_map]
  by_cases heq : i = index
  · subst heq
    rw [if_pos rfl, if_pos htime]
  · have hne : timestamp history[i] ≠ timestamp incoming := by
      intro hsame
      have hinj := @List.Nodup.getElem_inj_iff _ _ h i (by simpa) index (by simpa)
      rw [List.getElem_map, List.getElem_map, hsame, htime] at hinj
      exact heq (hinj.mp rfl)
    rw [if_neg heq, if_neg hne]

/-- A candle of a timestamp that is there takes the place of the one there, or is dropped. -/
theorem Merged.replaced (h : Merged received history) {index : Nat}
    (hindex : (history.findIdx? fun candle => timestamp candle = timestamp incoming) =
      some index) :
    Merged (received ++ [incoming]) (history.mapIdx fun candleIndex candle =>
      if candleIndex = index then replacement candle incoming else candle) := by
  rw [mapIdx_replacement h.nodup hindex]
  have hsame : ∀ candle : T, timestamp (if timestamp candle = timestamp incoming then
      replacement candle incoming else candle) = timestamp candle := by
    intro candle
    by_cases htime : timestamp candle = timestamp incoming
    · rw [if_pos htime, timestamp_replacement htime, htime]
    · rw [if_neg htime]
  constructor
  · rw [List.map_map, show timestamp ∘ _ = timestamp from funext hsame]
    exact h.increasing
  · intro time
    rw [List.find?_map]
    simp only [Function.comp_def, hsame]
    rw [h.found]
    by_cases htime : timestamp incoming = time
    · subst htime
      obtain ⟨hlt, hat, -⟩ := List.findIdx?_eq_some_iff_getElem.mp hindex
      have hthere := (find?_eq_some_iff_mem h.nodup).mpr
        ⟨List.getElem_mem hlt, of_decide_eq_true hat⟩
      rw [h.found] at hthere
      rw [kept_concat, hthere, Option.map_some, Option.map_some, Option.getD_some,
        if_pos (of_decide_eq_true hat)]
    · rw [kept_concat_of_ne htime]
      cases hkept : kept time received with
      | none => rfl
      | some candle =>
        have hne : timestamp candle ≠ timestamp incoming := by
          rw [(kept_spec hkept).2]
          exact Ne.symm htime
        rw [Option.map_some, if_neg hne]

variable {localeCompare : String → String → Ordering}

/-- A candle of a new timestamp is sorted in. -/
theorem Merged.inserted (h : Merged received history)
    (hlocale : ∀ left right, isCanonicalTimestamp left → isCanonicalTimestamp right →
      localeCompare left right = compare left right)
    (hcanonical : ∀ candle ∈ received ++ [incoming], isCanonicalTimestamp (timestamp candle))
    (hnew : ∀ candle ∈ history, timestamp candle ≠ timestamp incoming) :
    Merged (received ++ [incoming])
      (sortWith (fun left right => localeCompare (timestamp left) (timestamp right))
        (history ++ [incoming])) := by
  have hmember : ∀ candle ∈ history ++ [incoming], isCanonicalTimestamp (timestamp candle) := by
    intro candle hcandle
    refine hcanonical candle ?_
    rcases List.mem_append.mp hcandle with hold | hold
    · exact List.mem_append_left _ (h.received_of_mem hold)
    · exact List.mem_append_right _ hold
  have hcompare : sortWith (fun left right => localeCompare (timestamp left) (timestamp right))
      (history ++ [incoming]) =
        sortWith (fun left right => compare (timestamp left) (timestamp right))
          (history ++ [incoming]) :=
    sortWith_congr _ fun left hleft right hright =>
      hlocale _ _ (hmember left hleft) (hmember right hright)
  have hnodup : ((history ++ [incoming]).map timestamp).Nodup := by
    rw [List.map_append, List.nodup_append]
    refine ⟨h.nodup, List.nodup_singleton _, ?_⟩
    intro time htime other hother
    obtain ⟨candle, hcandle, rfl⟩ := List.mem_map.mp htime
    rw [List.map_singleton, List.mem_singleton] at hother
    rw [hother]
    exact hnew candle hcandle
  rw [hcompare]
  have hperm := sortWith_perm (fun left right : T => compare (timestamp left) (timestamp right))
    (history ++ [incoming])
  constructor
  · have hsorted := sortWith_pairwise
      (fun left right : T => compare (timestamp left) (timestamp right)) (history ++ [incoming])
    have hle := List.pairwise_map.mpr (hsorted.imp fun hne => compare_le_iff_le.mp hne)
    exact (hle.and ((hperm.map timestamp).nodup_iff.mpr hnodup)).imp fun ⟨hle, hne⟩ =>
      lt_of_le_of_ne hle hne
  · intro time
    rw [find?_eq_of_perm hnodup hperm, List.find?_append, h.found]
    by_cases htime : timestamp incoming = time
    · subst htime
      have hnone : kept (timestamp incoming) received = none := by
        rw [← h.found]
        exact List.find?_eq_none.mpr fun candle hcandle => by simpa using hnew candle hcandle
      rw [kept_concat, hnone]
      simp
    · rw [kept_concat_of_ne htime]
      simp [htime]

theorem Merged.mergeCandle (h : Merged received history)
    (hlocale : ∀ left right, isCanonicalTimestamp left → isCanonicalTimestamp right →
      localeCompare left right = compare left right)
    (hcanonical : ∀ candle ∈ received ++ [incoming], isCanonicalTimestamp (timestamp candle)) :
    Merged (received ++ [incoming]) (mergeCandle localeCompare history incoming) := by
  unfold Frontend.mergeCandle
  cases hindex : history.findIdx? fun candle => timestamp candle = timestamp incoming with
  | none =>
    have hnew := List.findIdx?_eq_none_iff.mp hindex
    exact h.inserted hlocale hcanonical fun candle hcandle => by simpa using hnew candle hcandle
  | some index => exact h.replaced hindex

end Step

/-- Whatever was received in whatever order, the history is in the order of the timestamps and has
for each of them the candle that counts. -/
theorem history_keeps_last_closed (localeCompare : String → String → Ordering)
    (hlocale : ∀ left right, isCanonicalTimestamp left → isCanonicalTimestamp right →
      localeCompare left right = compare left right)
    (received : List T)
    (hcanonical : ∀ candle ∈ received, isCanonicalTimestamp (timestamp candle)) :
    let history := received.foldl (mergeCandle localeCompare) []
    (history.map timestamp).Pairwise (· < ·) ∧ (history.map timestamp).Nodup ∧
      ∀ time, (history.find? fun candle => timestamp candle = time) = kept time received := by
  have hmerged : Merged received (received.foldl (mergeCandle localeCompare) []) := by
    induction received using List.reverseRecOn with
    | nil => exact ⟨List.Pairwise.nil, fun time => rfl⟩
    | append_singleton received incoming ih =>
      rw [List.foldl_concat]
      exact (ih fun candle hcandle => hcanonical candle (List.mem_append_left _ hcandle)).mergeCandle
        hlocale hcanonical
  exact ⟨hmerged.increasing, hmerged.nodup, hmerged.found⟩

/-- A candle with its closing price. -/
structure PricedCandle where
  timestamp : String
  close : Nat
  isClosed : Bool
  deriving DecidableEq

instance : UiCandle PricedCandle where
  timestamp := PricedCandle.timestamp
  isClosed := PricedCandle.isClosed

/-- A closed candle, a forming one that is late for it, and one of the minute before. -/
def lateCandles : List PricedCandle :=
  [⟨"2025-01-01T00:01:00.000Z", 3, true⟩, ⟨"2025-01-01T00:01:00.000Z", 99, false⟩,
    ⟨"2025-01-01T00:00:00.000Z", 2, false⟩]

theorem history_keeps_last_closed_of_late :
    let history := lateCandles.foldl (mergeCandle compare) []
    (history.map timestamp).Pairwise (· < ·) ∧ (history.map timestamp).Nodup ∧
      ∀ time, (history.find? fun candle => timestamp candle = time) = kept time lateCandles :=
  history_keeps_last_closed compare (fun _ _ _ _ => rfl) lateCandles (by decide)

example : lateCandles.foldl (mergeCandle compare) [] =
    [⟨"2025-01-01T00:00:00.000Z", 2, false⟩, ⟨"2025-01-01T00:01:00.000Z", 3, true⟩] := by
  decide

end Cryptox.Frontend
