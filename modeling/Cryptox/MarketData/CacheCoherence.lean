import Cryptox.MarketData.Calls

/-!
# The cached window and the repository

A refresh reads the rows in one step and stores the window in a later one. The window is current
again when every call that was going to refresh it has done so, unless a refresh whose rows have
changed since it read them is the last.
-/
namespace Cryptox.MarketData

open Cryptox.Backtesting (Timeframe)
open Cryptox.Library

/-- The closed candles of the window that a refresh would store. -/
def latestClosed (rows : CandleRows) (pair : Pair) (timeframe : Timeframe) : List Candle :=
  sliceLast latestCandleCacheWindow (sortCandles (closedOf (readRows rows pair timeframe)))

/-- The window in the cache, if any, has the closed candles that a refresh would give it. -/
def Coherent (store : Store) (pair : Pair) (timeframe : Timeframe) : Prop :=
  ∀ window, store.cache pair timeframe = some window → ∀ now,
    closedOf window.candles =
      closedOf (refreshedWindow (readRows store.rows pair timeframe) timeframe now).candles

theorem coherent_iff {store : Store} {pair : Pair} {timeframe : Timeframe} :
    Coherent store pair timeframe ↔
      ∀ window, store.cache pair timeframe = some window →
        closedOf window.candles = latestClosed store.rows pair timeframe := by
  simp only [Coherent, closedOf_refreshedWindow, latestClosed, forall_const]

/-- The window a call is going to store, or to remove before it stores one. -/
def Phase.target : Phase → Option (Pair × Timeframe)
  | invalidating candle => some (candle.pair, candle.timeframe)
  | writing candle _ => some (candle.pair, candle.timeframe)
  | refreshing after => some (after.pair, after.timeframe)
  | storing _ after => some (after.pair, after.timeframe)
  | _ => none

/-- What the call holds of the repository, if it has read it for its refresh, is still current. -/
def Phase.HoldsCurrent (rows : CandleRows) : Phase → Prop
  | storing window after =>
    closedOf window.candles = latestClosed rows after.pair after.timeframe
  | _ => True

namespace World

/-- Some other call is still going to store a current window. -/
def AwaitsRefresh (world : World) (except : Option Nat) (pair : Pair) (timeframe : Timeframe) :
    Prop :=
  ∃ call phase, except ≠ some call ∧ world.calls[call]? = some phase ∧
    phase.target = some (pair, timeframe) ∧ phase.HoldsCurrent world.store.rows

end World

/-- A call that stores a window read before the rows changed, or that fails before it has stored
one, is not the last to refresh. -/
def RefreshesLast (world : World) : Move → Prop
  | .proceed call environment =>
    ∀ phase pair timeframe, world.pending call = some phase →
      phase.target = some (pair, timeframe) →
        match phase, environment.failure with
        | .invalidating _, _ => True
        | .storing window _, none =>
          closedOf window.candles = latestClosed world.store.rows pair timeframe ∨
            world.AwaitsRefresh (some call) pair timeframe
        | _, none => True
        | _, some _ =>
          Coherent world.store pair timeframe ∨ world.AwaitsRefresh (some call) pair timeframe
  | _ => True

/-- Every window is coherent or about to be stored anew. -/
def Covered (world : World) : Prop :=
  ∀ pair timeframe, Coherent world.store pair timeframe ∨ world.AwaitsRefresh none pair timeframe

section Steps

variable {parse : String → Option TimeValue} {store : Store} {environment : Environment} {phase : Phase}
  {world : World} {pair : Pair} {timeframe : Timeframe}

theorem cache_setCache_of_ne {p : Pair} {t : Timeframe} {window : Option CachedCandleWindow}
    (h : (p, t) ≠ (pair, timeframe)) :
    (store.setCache p t window).cache pair timeframe = store.cache pair timeframe := by
  refine if_neg fun heq => h ?_
  rw [heq.1, heq.2]

theorem cache_setCache_self {window : Option CachedCandleWindow} :
    (store.setCache pair timeframe window).cache pair timeframe = window :=
  if_pos ⟨rfl, rfl⟩

theorem latestClosed_upsert_of_ne {rows : CandleRows} {candle : Candle}
    (h : (candle.pair, candle.timeframe) ≠ (pair, timeframe)) :
    latestClosed (upsert rows candle) pair timeframe = latestClosed rows pair timeframe := by
  have hother : isOf pair timeframe candle = false := by
    by_contra hof
    obtain ⟨hpair, htimeframe⟩ := isOf_iff.mp (Bool.eq_true_of_not_eq_false hof)
    exact h (by rw [hpair, htimeframe])
  rw [latestClosed, readRows_upsert_of_ne hother, latestClosed]

variable (parse store environment) in
/-- A step shows only in the window its call is going to store, and in the rows behind it. -/
theorem advance_frame (h : phase.target ≠ some (pair, timeframe)) :
    (advance parse store environment phase).1.cache pair timeframe =
        store.cache pair timeframe ∧
      latestClosed (advance parse store environment phase).1.rows pair timeframe =
        latestClosed store.rows pair timeframe := by
  cases phase with
  | invalidating candle =>
    have hne : (candle.pair, candle.timeframe) ≠ (pair, timeframe) := fun heq =>
      h (congrArg some heq)
    cases hf : environment.failure with
    | some cause => simp [advance, hf]
    | none => simpa [advance, hf] using ⟨cache_setCache_of_ne hne, rfl⟩
  | writing candle historical =>
    have hne : (candle.pair, candle.timeframe) ≠ (pair, timeframe) := fun heq =>
      h (congrArg some heq)
    cases hf : environment.failure with
    | some cause => simp [advance, hf]
    | none => simpa [advance, hf] using latestClosed_upsert_of_ne hne
  | storing window after =>
    have hne : (after.pair, after.timeframe) ≠ (pair, timeframe) := fun heq =>
      h (congrArg some heq)
    cases hf : environment.failure with
    | some cause => simp [advance, hf]
    | none => simpa [advance, hf] using ⟨cache_setCache_of_ne hne, rfl⟩
  | persisted result => exact ⟨rfl, rfl⟩
  | answered result => exact ⟨rfl, rfl⟩
  | _ =>
    simp only [advance]
    repeat' split
    all_goals exact ⟨rfl, rfl⟩

variable (parse store environment) in
/-- A call that is going to store a window goes on doing so until it stores it or fails. -/
theorem advance_target (h : phase.target = some (pair, timeframe)) :
    ((advance parse store environment phase).2.target = some (pair, timeframe) ∧
        (advance parse store environment phase).2.HoldsCurrent
          (advance parse store environment phase).1.rows) ∨
      (∃ window after, phase = .storing window after ∧ environment.failure = none ∧
        (advance parse store environment phase).1 =
          store.setCache pair timeframe (some window)) ∨
      ((∃ cause, environment.failure = some cause) ∧ (∀ candle, phase ≠ .invalidating candle) ∧
        (advance parse store environment phase).1 = store) := by
  cases phase with
  | invalidating candle =>
    left
    cases hf : environment.failure <;> simp only [advance, hf] <;> exact ⟨h, trivial⟩
  | writing candle historical =>
    cases hf : environment.failure with
    | some cause => exact Or.inr (Or.inr ⟨⟨cause, rfl⟩, by simp, by simp [advance, hf]⟩)
    | none =>
      simp only [advance, hf]
      exact Or.inl ⟨h, trivial⟩
  | refreshing after =>
    cases hf : environment.failure with
    | some cause => exact Or.inr (Or.inr ⟨⟨cause, rfl⟩, by simp, by simp [advance, hf]⟩)
    | none =>
      simp only [advance, hf]
      exact Or.inl ⟨h, closedOf_refreshedWindow _ _ _⟩
  | storing window after =>
    cases hf : environment.failure with
    | some cause => exact Or.inr (Or.inr ⟨⟨cause, rfl⟩, by simp, by simp [advance, hf]⟩)
    | none =>
      simp only [Phase.target, Option.some.injEq, Prod.mk.injEq] at h
      refine Or.inr (Or.inl ⟨window, after, rfl, rfl, ?_⟩)
      simp [advance, hf, h.1, h.2]
  | _ => cases h

theorem holdsCurrent_congr {rows rows' : CandleRows} (h : phase.target = some (pair, timeframe))
    (hrows : latestClosed rows' pair timeframe = latestClosed rows pair timeframe)
    (hholds : phase.HoldsCurrent rows) : phase.HoldsCurrent rows' := by
  cases phase with
  | storing window after =>
    simp only [Phase.target, Option.some.injEq, Prod.mk.injEq] at h
    simp only [Phase.HoldsCurrent, h.1, h.2] at hholds ⊢
    rw [hholds, hrows]
  | _ => trivial

/-- A refresh that is awaited stays so while other calls take their steps. -/
theorem awaitsRefresh_set {call : Nat} {next : Phase} {store : Store}
    (hrows : latestClosed store.rows pair timeframe = latestClosed world.store.rows pair timeframe)
    (h : world.AwaitsRefresh (some call) pair timeframe) :
    World.AwaitsRefresh ⟨store, world.calls.set call next⟩ none pair timeframe := by
  obtain ⟨other, phase, hother, hget, htarget, hholds⟩ := h
  have hne : call ≠ other := fun heq => hother (congrArg some heq)
  refine ⟨other, phase, by simp, ?_, htarget, holdsCurrent_congr htarget hrows hholds⟩
  rw [List.getElem?_set_ne hne]
  exact hget

theorem awaitsRefresh_append {calls : List Phase}
    (h : world.AwaitsRefresh none pair timeframe) :
    World.AwaitsRefresh ⟨world.store, world.calls ++ calls⟩ none pair timeframe := by
  obtain ⟨other, phase, hother, hget, htarget, hholds⟩ := h
  refine ⟨other, phase, hother, ?_, htarget, hholds⟩
  rw [List.getElem?_append_left (List.getElem?_eq_some_iff.mp hget).1]
  exact hget

theorem pending_eq_some {call : Nat} :
    world.pending call = some phase ↔
      world.calls[call]? = some phase ∧ phase.isFinished = false := by
  simp [World.pending, Option.filter_eq_some_iff]

theorem coherent_congr {store' : Store}
    (hcache : store'.cache pair timeframe = store.cache pair timeframe)
    (hrows : latestClosed store'.rows pair timeframe = latestClosed store.rows pair timeframe)
    (h : Coherent store pair timeframe) : Coherent store' pair timeframe := by
  rw [coherent_iff] at h ⊢
  rw [hcache, hrows]
  exact h

/-- A step of a call keeps every window covered if the last refresh is a current one. -/
theorem covered_proceed {call : Nat} (hget : world.pending call = some phase)
    (hcovered : Covered world) (hlast : RefreshesLast world (.proceed call environment)) :
    Covered ⟨(advance parse world.store environment phase).1,
      world.calls.set call (advance parse world.store environment phase).2⟩ := by
  intro pair timeframe
  obtain ⟨hcall, -⟩ := pending_eq_some.mp hget
  by_cases htarget : phase.target = some (pair, timeframe)
  · have hlastOf := hlast phase pair timeframe hget htarget
    rcases advance_target parse world.store environment htarget with
      ⟨hnext, hholds⟩ | ⟨window, after, rfl, hnone, hstore⟩ |
        ⟨⟨cause, hcause⟩, hinvalidating, hstore⟩
    · refine Or.inr ⟨call, _, by simp, List.getElem?_set_self ?_, hnext, hholds⟩
      exact (List.getElem?_eq_some_iff.mp hcall).1
    · simp only [hnone] at hlastOf
      rw [hstore]
      rcases hlastOf with hcurrent | hawaits
      · refine Or.inl (coherent_iff.mpr fun stored hstored => ?_)
        rw [← Option.some.inj (cache_setCache_self.symm.trans hstored)]
        exact hcurrent
      · exact Or.inr (awaitsRefresh_set rfl hawaits)
    · have hkept : Coherent world.store pair timeframe ∨
          world.AwaitsRefresh (some call) pair timeframe := by
        cases phase with
        | invalidating candle => exact absurd rfl (hinvalidating candle)
        | _ => simpa only [hcause] using hlastOf
      rw [hstore]
      exact hkept.imp_right (awaitsRefresh_set rfl)
  · obtain ⟨hcache, hrows⟩ := advance_frame parse world.store environment htarget
    rcases hcovered pair timeframe with hcoherent | ⟨other, awaited, -, hother, hawaited, hholds⟩
    · exact Or.inl (coherent_congr hcache hrows hcoherent)
    · right
      refine awaitsRefresh_set hrows ⟨other, awaited, ?_, hother, hawaited, hholds⟩
      rintro heq
      cases heq
      rw [hcall] at hother
      cases hother
      exact htarget hawaited

theorem covered_next {move : Move} (hcovered : Covered world) (hlast : RefreshesLast world move) :
    Covered ((calls parse).next world move) := by
  cases move with
  | persist observation =>
    exact fun pair timeframe => (hcovered pair timeframe).imp_right awaitsRefresh_append
  | readCandles query now =>
    simp only [calls, World.next]
    split
    all_goals exact fun pair timeframe => (hcovered pair timeframe).imp_right awaitsRefresh_append
  | expire p t =>
    intro pair timeframe
    rcases hcovered pair timeframe with hcoherent | hawaits
    · left
      intro window hwindow
      by_cases hkey : (p, t) = (pair, timeframe)
      · cases hkey
        cases cache_setCache_self.symm.trans hwindow
      · simp only [calls, World.next, cache_setCache_of_ne hkey] at hwindow
        exact hcoherent window hwindow
    · exact Or.inr hawaits
  | proceed call environment =>
    simp only [calls, World.next]
    cases hget : world.pending call with
    | none => exact hcovered
    | some phase => exact covered_proceed hget hcovered hlast

/-- No call is still going to store a window of a pair and a timeframe, as it is when every one of
their calls has finished. -/
def Idle (world : World) (pair : Pair) (timeframe : Timeframe) : Prop :=
  ∀ phase ∈ world.calls, phase.isFinished = true ∨ phase.target ≠ some (pair, timeframe)

theorem coherent_of_idle (hcovered : Covered world) (hidle : Idle world pair timeframe) :
    Coherent world.store pair timeframe := by
  rcases hcovered pair timeframe with hcoherent | ⟨call, phase, -, hget, htarget, -⟩
  · exact hcoherent
  · rcases hidle phase (List.mem_of_getElem? hget) with hfinished | hother
    · cases phase <;> cases hfinished <;> cases htarget
    · exact absurd htarget hother

/-- In a run whose last refreshes are current ones, the window of a pair and a timeframe is
coherent whenever none of their calls is in progress. -/
theorem cache_coherent_of_refreshesLast
    (hstart : ∀ pair timeframe, Coherent store pair timeframe) {before later : List Move}
    (h : (calls parse).Legal RefreshesLast ⟨store, []⟩ (before ++ later))
    (hidle : Idle ((calls parse).run ⟨store, []⟩ before) pair timeframe) :
    Coherent ((calls parse).run ⟨store, []⟩ before).store pair timeframe := by
  have hcovered : Covered ((calls parse).run ⟨store, []⟩ before) := by
    refine (GuardedSystem.legal_append.mp h).1.invariant Covered ?_ ?_
    · exact fun _ _ hcovered _ hlast => covered_next hcovered hlast
    · exact fun pair timeframe => Or.inl (hstart pair timeframe)
  exact coherent_of_idle hcovered hidle

instance decidableHoldsCurrent (rows : CandleRows) :
    ∀ phase : Phase, Decidable (phase.HoldsCurrent rows)
  | .storing window after => inferInstanceAs
      (Decidable (closedOf window.candles = latestClosed rows after.pair after.timeframe))
  | .resolving _ | .reading .. | .invalidating _ | .writing .. | .providing _ | .caching ..
  | .listing .. | .syncing .. | .relisting .. | .refreshing _ | .persisted _ | .answered _ =>
    isTrue trivial

/-- Nothing fails, and every window that is stored is current. -/
def storesCurrent (world : World) : Move → Bool
  | .proceed call environment => environment.failure.isNone &&
      (world.pending call).all fun phase => phase.HoldsCurrent world.store.rows
  | _ => true

theorem refreshesLast_of_storesCurrent {move : Move} (h : storesCurrent world move = true) :
    RefreshesLast world move := by
  cases move with
  | proceed call environment =>
    simp only [storesCurrent, Bool.and_eq_true, Option.isNone_iff_eq_none] at h
    obtain ⟨hnone, hcurrent⟩ := h
    intro phase pair timeframe hget htarget
    rw [hget, Option.all_some, decide_eq_true_eq] at hcurrent
    cases phase with
    | storing window after =>
      simp only [Phase.target, Option.some.injEq, Prod.mk.injEq] at htarget
      simp only [hnone, ← htarget.1, ← htarget.2]
      exact Or.inl hcurrent
    | _ => simp only [hnone]
  | _ => trivial

/-- One candle is persisted after the other. -/
def sequentialPersists : List Move :=
  .persist (exampleObservation 0 0) :: List.replicate 5 (.proceed 0 exampleEnvironment) ++
    .persist (exampleObservation 1 0) :: List.replicate 5 (.proceed 1 exampleEnvironment)

theorem sequentialPersists_coherent :
    Coherent ((calls exampleParse).run (World.start .empty) sequentialPersists).store
      ⟨"BTCUSDT", by decide⟩ .m1 := by
  have hlegal : (calls exampleParse).Legal (fun world move => storesCurrent world move = true)
      (World.start .empty) (sequentialPersists ++ []) := by
    decide +kernel
  refine cache_coherent_of_refreshesLast (fun _ _ window hwindow => ?_)
    (hlegal.mono fun _ _ => refreshesLast_of_storesCurrent) fun phase hphase => Or.inl ?_
  · cases hwindow
  · have hfinished : (((calls exampleParse).run (World.start .empty) sequentialPersists).calls.all
        Phase.isFinished) = true := by
      decide +kernel
    exact List.all_eq_true.mp hfinished phase hphase

/-- Two candles are persisted, and the refresh that has read the first alone is the last. -/
def overtakenRefresh : List Move :=
  [.persist (exampleObservation 0 0), .persist (exampleObservation 1 0)] ++
    List.replicate 4 (.proceed 0 exampleEnvironment) ++
    List.replicate 5 (.proceed 1 exampleEnvironment) ++ [.proceed 0 exampleEnvironment]

theorem overtaken_refresh_stale :
    ¬ ∀ moves, (calls exampleParse).Legal (fun _ _ => True) (World.start .empty) moves →
      (∀ phase ∈ ((calls exampleParse).run (World.start .empty) moves).calls,
        phase.isFinished = true) →
      ∀ pair timeframe,
        Coherent ((calls exampleParse).run (World.start .empty) moves).store pair timeframe := by
  intro h
  have hlegal : (calls exampleParse).Legal (fun _ _ => True) (World.start .empty)
      overtakenRefresh := by
    decide +kernel
  have hfinished : (((calls exampleParse).run (World.start .empty) overtakenRefresh).calls.all
      Phase.isFinished) = true := by
    decide +kernel
  have hstale : (((calls exampleParse).run (World.start .empty) overtakenRefresh).store.cache
      ⟨"BTCUSDT", by decide⟩ .m1).any (fun window => closedOf window.candles !=
        latestClosed ((calls exampleParse).run (World.start .empty) overtakenRefresh).store.rows
          ⟨"BTCUSDT", by decide⟩ .m1) = true := by
    decide +kernel
  obtain ⟨window, hwindow, hne⟩ := (Option.any_eq_true _ _).mp hstale
  have hcoherent := h overtakenRefresh hlegal (List.all_eq_true.mp hfinished)
    ⟨"BTCUSDT", by decide⟩ .m1
  exact bne_iff_ne.mp hne (coherent_iff.mp hcoherent window hwindow)

end Steps

end Cryptox.MarketData
