import Cryptox.MarketData.Calls

/-!
# Closed candles stay as they are

`persist` decides from a row it has read and writes in a later step, so a closed candle that was
stored in between is written over. Over the row it has read it never writes, as `decidePersist` sees
to that, and nothing else changes a closed candle but a historical observation.
-/
namespace Cryptox.MarketData

open Cryptox.Backtesting (Timeframe)
open Cryptox.Library

def World.written (world : World) : Move → Option (Candle × Bool)
  | .proceed call environment => (world.pending call).bind (Phase.written environment)
  | _ => none

/-- A closed candle from the stream is written only where no other closed one is stored. -/
def WritesOverNothing (world : World) (move : Move) : Prop :=
  ∀ candle, world.written move = some (candle, false) → candle.isClosed = true →
    ∀ existing, world.store.rows.get? candle.key = some existing → existing.isClosed = true →
      existing.values = candle.values

section Runs

variable (parse : String → Option TimeValue)

/-- Some step of a stretch writes a closed historical observation under the key. -/
def Corrects (key : CandleKey) : World → List Move → Prop
  | _, [] => False
  | world, move :: moves =>
    (∃ candle, world.written move = some (candle, true) ∧ candle.isClosed = true ∧
      candle.key = key) ∨ Corrects key ((calls parse).next world move) moves

/-- After a stretch the closed candles from before it are there and closed, and their values are
the same unless a historical observation was written. -/
def Retained (world : World) (stretch : List Move) : Prop :=
  ∀ key existing, world.store.rows.get? key = some existing → existing.isClosed = true →
    ∃ later, ((calls parse).run world stretch).store.rows.get? key = some later ∧
      later.isClosed = true ∧
      (later.values = existing.values ∨ Corrects parse key world stretch)

variable {parse} {world : World} {move : Move}

variable (parse world move) in
theorem rows_next :
    ((calls parse).next world move).store.rows =
      match world.written move with
      | some (candle, _) => upsert world.store.rows candle
      | none => world.store.rows := by
  cases move with
  | persist observation => rfl
  | expire pair timeframe => rfl
  | readCandles query now =>
    simp only [calls, World.next]
    split <;> rfl
  | proceed call environment =>
    simp only [calls, World.next, World.written]
    cases world.pending call with
    | none => rfl
    | some phase => exact rows_advance

variable (parse) in
/-- A step leaves a closed candle as it is or puts the closed one that it writes in its place. -/
theorem closed_next {key : CandleKey} {existing : Candle} (move : Move)
    (hget : world.store.rows.get? key = some existing) (hexisting : existing.isClosed = true) :
    ((calls parse).next world move).store.rows.get? key = some existing ∨
      ∃ candle historical, world.written move = some (candle, historical) ∧
        candle.isClosed = true ∧ candle.key = key ∧
        ((calls parse).next world move).store.rows.get? key = some candle := by
  rw [rows_next]
  cases hwritten : world.written move with
  | none => exact Or.inl hget
  | some write =>
    obtain ⟨candle, historical⟩ := write
    by_cases hkey : key = candle.key
    · subst hkey
      cases hclosed : candle.isClosed with
      | false => exact Or.inl (get?_upsert_of_forming hclosed hget hexisting)
      | true => exact Or.inr ⟨candle, historical, rfl, hclosed, rfl, get?_upsert_of_closed hclosed⟩
    · exact Or.inl ((get?_upsert_of_ne hkey).trans hget)

/-- A stretch of one step retains the closed candles just when it writes over none. -/
theorem retained_step : Retained parse world [move] ↔ WritesOverNothing world move := by
  have hrows := rows_next parse world move
  constructor
  · intro h candle hwritten hclosed existing hget hexisting
    obtain ⟨later, hlater, -, hvalues | hcorrects⟩ := h candle.key existing hget hexisting
    · rw [GuardedSystem.run, GuardedSystem.run, hrows, hwritten] at hlater
      simp only [get?_upsert_of_closed hclosed, Option.some.injEq] at hlater
      rw [hlater, hvalues]
    · rcases hcorrects with ⟨corrected, hcorrected, -⟩ | hnone
      · rw [hwritten] at hcorrected
        cases hcorrected
      · cases hnone
  · intro h key existing hget hexisting
    rcases closed_next parse move hget hexisting with
      hsame | ⟨candle, historical, hwritten, hclosed, rfl, hnext⟩
    · exact ⟨existing, hsame, hexisting, Or.inl rfl⟩
    · refine ⟨candle, hnext, hclosed, ?_⟩
      cases historical with
      | true => exact Or.inr (Or.inl ⟨candle, hwritten, hclosed, rfl⟩)
      | false => exact Or.inl (h candle hwritten hclosed existing hget hexisting).symm

theorem corrects_append {key : CandleKey} {first second : List Move} :
    Corrects parse key world (first ++ second) ↔
      Corrects parse key world first ∨
        Corrects parse key ((calls parse).run world first) second := by
  induction first generalizing world with
  | nil => simp [Corrects, GuardedSystem.run]
  | cons move first ih => simp [Corrects, GuardedSystem.run, ih, or_assoc]

theorem Retained.append {first second : List Move} (hfirst : Retained parse world first)
    (hsecond : Retained parse ((calls parse).run world first) second) :
    Retained parse world (first ++ second) := by
  intro key existing hget hexisting
  obtain ⟨middle, hmiddle, hclosed, hvalues⟩ := hfirst key existing hget hexisting
  obtain ⟨later, hlater, hlaterClosed, hlaterValues⟩ := hsecond key middle hmiddle hclosed
  rw [GuardedSystem.run_append, corrects_append]
  refine ⟨later, hlater, hlaterClosed, ?_⟩
  rcases hvalues with hvalues | hcorrects
  · rcases hlaterValues with hlaterValues | hcorrects
    · exact Or.inl (hlaterValues.trans hvalues)
    · exact Or.inr (Or.inr hcorrects)
  · exact Or.inr (Or.inl hcorrects)

/-- Whatever is written, a closed candle neither goes nor forms again. -/
theorem remains_closed {key : CandleKey} {existing : Candle} {moves : List Move}
    (hget : world.store.rows.get? key = some existing) (hexisting : existing.isClosed = true) :
    ∃ later, ((calls parse).run world moves).store.rows.get? key = some later ∧
      later.isClosed = true := by
  induction moves generalizing world existing with
  | nil => exact ⟨existing, hget, hexisting⟩
  | cons move moves ih =>
    rcases closed_next parse move hget hexisting with hsame | ⟨candle, -, -, hclosed, -, hnext⟩
    · exact ih hsame hexisting
    · exact ih hnext hclosed

theorem retained_of_legal {moves : List Move} (h : (calls parse).Legal WritesOverNothing world moves) :
    Retained parse world moves := by
  induction moves generalizing world with
  | nil => exact fun key existing hget hexisting => ⟨existing, hget, hexisting, Or.inl rfl⟩
  | cons move moves ih =>
    have hstep : Retained parse world [move] := retained_step.mpr h.1.2
    exact hstep.append (ih h.2)

/-! What a call has read, and that it does not write over it. -/

section Reading

variable (parse) in
/-- The row that a call has read in the course of a run. -/
def HasRead (world : World) (moves : List Move) (call : Nat) (existing : Candle) : Prop :=
  ∃ first environment rest candle historical,
    moves = first ++ (.proceed call environment :: rest) ∧ environment.failure = none ∧
    ((calls parse).run world first).calls[call]? = some (.reading candle historical) ∧
    (readRows ((calls parse).run world first).store.rows candle.pair candle.timeframe).find?
      (fun item => item.timestamp = candle.timestamp) = some existing

/-- A phase that leads to no write of a candle from the stream. -/
def Phase.Declined : Phase → Prop
  | .resolving _ | .reading .. | .writing _ false => False
  | _ => True

/-- Over a closed row that was read, no candle from the stream is going to be written. -/
theorem declined_decidePersist {existing candle : Candle} {historical : Bool}
    (hexisting : existing.isClosed = true) :
    (decidePersist (some existing) candle historical).Declined := by
  simp only [decidePersist, hexisting, Bool.true_and]
  split
  · trivial
  · split
    · trivial
    · split
      · trivial
      · rw [if_pos (by simp_all)]
        trivial

theorem declined_finish (after : AfterRefresh) : after.finish.Declined := by
  cases after <;> trivial

theorem declined_advance {store : Store} {environment : Environment} {phase : Phase}
    (h : phase.Declined) : (advance parse store environment phase).2.Declined := by
  cases phase with
  | resolving observation => cases h
  | reading candle historical => cases h
  | writing candle historical =>
    simp only [advance]
    split <;> trivial
  | refreshing after =>
    simp only [advance]
    split
    · exact declined_finish after
    · trivial
  | storing window after =>
    simp only [advance]
    split <;> exact declined_finish after
  | invalidating candle =>
    simp only [advance]
    split <;> trivial
  | syncing request requested rows =>
    simp only [advance, syncFailed]
    repeat' split
    all_goals trivial
  | relisting request requested rows =>
    simp only [advance, syncFailed]
    repeat' split
    all_goals trivial
  | providing request =>
    simp only [advance]
    repeat' split
    all_goals trivial
  | caching request provided =>
    simp only [advance]
    split <;> trivial
  | listing request provided =>
    simp only [advance]
    repeat' split
    all_goals trivial
  | persisted result => trivial
  | answered result => trivial

/-- The call is at a phase that leads to no write from the stream. -/
def World.Declined (world : World) (call : Nat) : Prop :=
  ∃ phase, world.calls[call]? = some phase ∧ phase.Declined

theorem declined_next {call : Nat} (h : world.Declined call) :
    ((calls parse).next world move).Declined call := by
  obtain ⟨phase, hphase, hdeclined⟩ := h
  have hlt : call < world.calls.length := (List.getElem?_eq_some_iff.mp hphase).1
  have happend : ∀ added, (world.calls ++ [added])[call]? = some phase :=
    fun added => (List.getElem?_append_left hlt).trans hphase
  cases move with
  | persist observation => exact ⟨phase, happend _, hdeclined⟩
  | readCandles query now =>
    simp only [calls, World.next]
    split <;> exact ⟨phase, happend _, hdeclined⟩
  | expire pair timeframe => exact ⟨phase, hphase, hdeclined⟩
  | proceed other environment =>
    simp only [calls, World.next]
    cases hpending : world.pending other with
    | none => exact ⟨phase, hphase, hdeclined⟩
    | some found =>
      by_cases hother : other = call
      · subst hother
        obtain ⟨hfound, -⟩ := Option.filter_eq_some_iff.mp hpending
        cases hphase.symm.trans hfound
        exact ⟨_, List.getElem?_set_self hlt, declined_advance hdeclined⟩
      · exact ⟨phase, (List.getElem?_set_ne hother).trans hphase, hdeclined⟩

theorem declined_run {call : Nat} {moves : List Move} (h : world.Declined call) :
    ((calls parse).run world moves).Declined call := by
  induction moves generalizing world with
  | nil => exact h
  | cons move moves ih => exact ih (declined_next h)

/-- No call writes a candle from the stream after it has read a closed row. -/
theorem not_written_of_hasRead {moves : List Move} {call : Nat} {environment : Environment}
    {existing candle : Candle} (hread : HasRead parse world moves call existing)
    (hexisting : existing.isClosed = true) :
    ((calls parse).run world moves).written (.proceed call environment) ≠ some (candle, false) := by
  obtain ⟨first, reading, rest, read, historical, rfl, hfailure, hphase, hfind⟩ := hread
  intro hwritten
  have hpending : ((calls parse).run world first).pending call =
      some (.reading read historical) := by
    rw [World.pending, hphase]
    rfl
  have hdeclined : ((calls parse).next ((calls parse).run world first)
      (.proceed call reading)).Declined call := by
    have hlt := (List.getElem?_eq_some_iff.mp hphase).1
    simp only [calls, World.next]
    have hphase' := hpending
    simp only [calls] at hphase'
    rw [hphase']
    refine ⟨_, List.getElem?_set_self hlt, ?_⟩
    simp only [advance, hfailure]
    simp only [calls] at hfind
    rw [hfind]
    exact declined_decidePersist hexisting
  rw [GuardedSystem.run_append] at hwritten
  obtain ⟨phase, hfound, hphaseDeclined⟩ := @declined_run parse _ call rest hdeclined
  simp only [World.written, Option.bind_eq_some_iff] at hwritten
  obtain ⟨pending, hpending', hwrite⟩ := hwritten
  obtain ⟨hsame, -⟩ := Option.filter_eq_some_iff.mp hpending'
  obtain rfl : phase = pending := Option.some.inj (hfound.symm.trans hsame)
  cases phase with
  | writing written source =>
    simp only [Phase.written] at hwrite
    split at hwrite
    · cases hwrite
      exact hphaseDeclined
    · cases hwrite
  | _ => cases hwrite

end Reading

variable (parse) in
/-- When a closed candle from the stream is written, a closed row of other values under its key is
the one that the call has read: none was stored since. -/
def Undisturbed (world : World) (moves : List Move) : Prop :=
  ∀ before call environment later, moves = before ++ (.proceed call environment :: later) →
    ∀ candle, ((calls parse).run world before).written (.proceed call environment) =
        some (candle, false) → candle.isClosed = true →
      ∀ existing, ((calls parse).run world before).store.rows.get? candle.key = some existing →
        existing.isClosed = true → existing.values ≠ candle.values →
          HasRead parse world before call existing

/-- Undisturbed runs write no closed candle from the stream over another. -/
theorem undisturbed_iff {moves : List Move} :
    (calls parse).Legal (fun _ _ => True) world moves ∧ Undisturbed parse world moves ↔
      (calls parse).Legal WritesOverNothing world moves := by
  constructor
  · rintro ⟨hlegal, hundisturbed⟩
    refine GuardedSystem.legal_iff_forall.mpr ⟨hlegal, ?_⟩
    intro before move later hmoves candle hwritten hclosed existing hget hexisting
    by_contra hvalues
    cases move with
    | proceed call environment =>
      have hread := hundisturbed before call environment later hmoves candle hwritten hclosed existing
        hget hexisting hvalues
      exact not_written_of_hasRead hread hexisting hwritten
    | _ => cases hwritten
  · intro h
    obtain ⟨hlegal, hall⟩ := GuardedSystem.legal_iff_forall.mp h
    refine ⟨hlegal, ?_⟩
    intro before call environment later hmoves candle hwritten hclosed existing hget hexisting hvalues
    exact absurd (hall before _ later hmoves candle hwritten hclosed existing hget hexisting) hvalues

/-- The runs in which no other closed row is stored between the read and the write of a call from
the stream are those that retain every closed candle between any two of their states. -/
theorem closed_candles_retained_iff {moves : List Move} :
    (calls parse).Legal (fun _ _ => True) world moves ∧ Undisturbed parse world moves ↔
      (calls parse).Legal (fun _ _ => True) world moves ∧
        ∀ before stretch later, moves = before ++ (stretch ++ later) →
          Retained parse ((calls parse).run world before) stretch := by
  rw [undisturbed_iff]
  constructor
  · intro h
    refine ⟨h.mono fun _ _ _ => trivial, ?_⟩
    rintro before stretch later rfl
    have hlater := (GuardedSystem.legal_append.mp h).2
    exact retained_of_legal (GuardedSystem.legal_append.mp hlater).1
  · rintro ⟨hlegal, hall⟩
    refine GuardedSystem.legal_iff_forall.mpr ⟨hlegal, ?_⟩
    rintro before move later rfl
    exact retained_step.mp (hall before [move] later rfl)

/-- Two closed observations of one candle, both decided before either is written. -/
def overlappingObservations : List Move :=
  [.persist (exampleObservation 0 0), .persist (exampleObservation 0 1),
    .proceed 0 exampleEnvironment, .proceed 1 exampleEnvironment,
    .proceed 0 exampleEnvironment, .proceed 1 exampleEnvironment,
    .proceed 0 exampleEnvironment]

/-- The second observation then changes the closed candle that the first has stored. -/
theorem closed_candle_overwritten :
    ¬ ∀ moves, (calls exampleParse).Legal (fun _ _ => True) (World.start .empty) moves →
      ∀ before stretch later, moves = before ++ (stretch ++ later) →
        Retained exampleParse ((calls exampleParse).run (World.start .empty) before) stretch := by
  intro h
  have hlegal : (calls exampleParse).Legal (fun _ _ => True) (World.start .empty)
      (overlappingObservations ++ [.proceed 1 exampleEnvironment]) := by
    decide +kernel
  have hover : (((calls exampleParse).run (World.start .empty) overlappingObservations).written
      (.proceed 1 exampleEnvironment)).any (fun write => write.2 == false && write.1.isClosed &&
        (((calls exampleParse).run (World.start .empty) overlappingObservations).store.rows.get?
          write.1.key).any fun existing =>
            existing.isClosed && existing.values != write.1.values) = true := by
    decide +kernel
  have hstep := retained_step.mp (h _ hlegal overlappingObservations [.proceed 1 exampleEnvironment]
    [] (by rw [List.append_nil]))
  obtain ⟨⟨candle, historical⟩, hwritten, hwrite⟩ := (Option.any_eq_true _ _).mp hover
  simp only [Bool.and_eq_true, beq_iff_eq] at hwrite
  obtain ⟨⟨rfl, hclosed⟩, hstored⟩ := hwrite
  obtain ⟨existing, hget, hexisting⟩ := (Option.any_eq_true _ _).mp hstored
  simp only [Bool.and_eq_true, bne_iff_ne] at hexisting
  exact hexisting.2 (hstep candle hwritten hclosed existing hget hexisting.1)

end Runs

end Cryptox.MarketData
