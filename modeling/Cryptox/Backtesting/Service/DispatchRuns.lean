import Cryptox.Backtesting.Service.DispatchSafety

/-!
# What a run hands to the queue

Over any run a stored candidate's dispatch is pending, cancelled, or its job has reached the queue;
nothing else reaches it. A recovery that nobody disturbs, before a queue that takes every job, leaves
no dispatch pending.
-/
namespace Cryptox.Backtesting

open Cryptox.Library

/-- The queue has taken nothing but what stored candidates submitted, and has taken the job of every
dispatch that is marked as dispatched. -/
structure Accounted (w : DispatchWorld) : Prop where
  taken : ∀ job ∈ w.taken, job.valid = true ∧ (w.world.stored job.candidateId).isSome ∧
    ∃ dispatch, w.dispatch? job.jobId = some dispatch ∧ dispatch.job = job
  kept : ∀ jobId job, w.queue.get? jobId = some job → job ∈ w.taken
  reached : ∀ candidateId, (w.world.stored candidateId).isSome →
    ∃ dispatch, w.dispatch? candidateId = some dispatch ∧ dispatch.candidateId = candidateId ∧
      (dispatch.state = .pending ∨ dispatch.state = .cancelled ∨ dispatch.job ∈ w.taken)

/-- Dispatches keep their jobs, and a cancellation lasts: once no call holds the job, the queue takes
it no more. -/
structure Settles (w later : DispatchWorld) : Prop where
  jobs : ∀ jobId dispatch, w.dispatch? jobId = some dispatch →
    ∃ row, later.dispatch? jobId = some row ∧ row.job = dispatch.job ∧
      (dispatch.state = .cancelled → row.state = .cancelled)
  withdrawn : ∀ jobId dispatch, w.dispatch? jobId = some dispatch → dispatch.state = .cancelled →
    (∀ callId held, w.phase callId = some (.holding held) → held.jobId ≠ jobId) →
    later.taken.filter (fun job => job.jobId = jobId) =
        w.taken.filter (fun job => job.jobId = jobId) ∧
      (w.queue.get? jobId = none → later.queue.get? jobId = none)

namespace DispatchWorld

variable {w later : DispatchWorld} {storage : Storage} {jobId : String} {job : BacktestQueueJob}

theorem content?_box (h : w.box.content? jobId = some job) :
    ∃ dispatch, w.dispatch? jobId = some dispatch ∧ dispatch.job = job := by
  rw [Outbox.content?, letters_box, Option.map_map, Option.map_eq_some_iff] at h
  exact h

theorem mem_arrived_box : (jobId, job) ∈ w.box.arrived ↔ job ∈ w.taken ∧ job.jobId = jobId := by
  rw [box, List.mem_map]
  constructor
  · rintro ⟨found, hfound, heq⟩
    cases heq
    exact ⟨hfound, rfl⟩
  · rintro ⟨hmem, rfl⟩
    exact ⟨job, hmem, rfl⟩

theorem standing_sent {dispatch : BacktestDispatch} (h : dispatch.state = .dispatched) :
    dispatch.letter.standing = .sent := by
  rw [BacktestDispatch.letter, h]
  rfl

theorem letter_cancelled {dispatch : BacktestDispatch} (h : dispatch.state = .cancelled) :
    dispatch.letter = ⟨dispatch.job, .withdrawn⟩ := by
  rw [BacktestDispatch.letter, h]
  rfl

theorem cancelled_of_letter {dispatch : BacktestDispatch}
    (h : dispatch.letter = ⟨job, .withdrawn⟩) : dispatch.state = .cancelled := by
  have hstanding := congrArg Letter.standing h
  cases hstate : dispatch.state <;> simp_all [BacktestDispatch.letter, DispatchState.standing]

theorem accounted (h : DispatchInv w) (hsound : w.box.Sound) : Accounted w where
  taken job hjob := by
    obtain ⟨dispatch, hdispatch, hsame⟩ :=
      content?_box (hsound.arrived job.jobId job (mem_arrived_box.mpr ⟨hjob, rfl⟩))
    obtain ⟨hcandidate, hvalid⟩ := h.owned job.jobId dispatch hdispatch
    rw [BacktestDispatch.candidateId, hsame] at hcandidate
    rw [hsame] at hvalid
    refine ⟨hvalid, ?_, dispatch, hdispatch, hsame⟩
    rw [hcandidate, h.paired, hdispatch]
    rfl
  kept jobId job hjob := (mem_arrived_box.mp (hsound.kept jobId job hjob)).1
  reached candidateId hstored := by
    obtain ⟨dispatch, hdispatch⟩ := Option.isSome_iff_exists.mp ((h.paired candidateId).mp hstored)
    refine ⟨dispatch, hdispatch, (h.owned candidateId dispatch hdispatch).1, ?_⟩
    cases hstate : dispatch.state with
    | pending => exact .inl rfl
    | cancelled => exact .inr (.inl rfl)
    | dispatched =>
      have hletter : w.box.letters candidateId = some dispatch.letter := by
        rw [letters_box, hdispatch, Option.map_some]
      have harrived := hsound.sent candidateId dispatch.letter hletter (standing_sent hstate)
      exact .inr (.inr (mem_arrived_box.mp harrived).1)

theorem arrivalsOf_box (w : DispatchWorld) (jobId : String) :
    w.box.arrivalsOf jobId =
      (w.taken.filter fun job => job.jobId = jobId).map fun job => (job.jobId, job) := by
  rw [Outbox.arrivalsOf, box, List.filter_map]
  rfl

theorem settles (hleads : Leads w.box later.box) : Settles w later := by
  obtain ⟨events, hlegal, hrun⟩ := hleads
  constructor
  case jobs =>
    intro jobId dispatch hdispatch
    have hletter : w.box.letters jobId = some dispatch.letter := by
      rw [letters_box, hdispatch, Option.map_some]
    have hcontent : w.box.content? jobId = some dispatch.job := by
      rw [Outbox.content?, hletter, Option.map_some]
      rfl
    have hstill := Outbox.content?_run hlegal hcontent
    rw [hrun] at hstill
    obtain ⟨row, hrow, hjob⟩ := content?_box hstill
    refine ⟨row, hrow, hjob, fun hcancelled => ?_⟩
    rw [letter_cancelled hcancelled] at hletter
    have hwithdrawn := Outbox.withdrawn_run hlegal hletter
    rw [hrun, letters_box, hrow, Option.map_some] at hwithdrawn
    exact cancelled_of_letter (Option.some.inj hwithdrawn)
  case withdrawn =>
    intro jobId dispatch hdispatch hcancelled hidle
    have hquiet : w.box.Quiet jobId dispatch.job := by
      refine ⟨by rw [letters_box, hdispatch, Option.map_some, letter_cancelled hcancelled], ?_⟩
      intro callId load hload
      rw [carried_box, Option.bind_eq_some_iff] at hload
      obtain ⟨phase, hphase, hload⟩ := hload
      cases phase with
      | holding held =>
        cases hload
        exact hidle callId held hphase
      | accepted | refused | returned | stopped => cases hload
    obtain ⟨harrivals, hkept⟩ := Outbox.quiet_run hlegal hquiet
    rw [hrun] at harrivals hkept
    rw [arrivalsOf_box, arrivalsOf_box] at harrivals
    have hpair : Function.Injective fun job : BacktestQueueJob => (job.jobId, job) :=
      fun _ _ heq => (Prod.mk.inj heq).2
    exact ⟨hpair.list_map harrivals, hkept⟩

/-- The jobs are accounted for in every state reached. -/
theorem accounted_run {steps : List DispatchStep}
    (hlegal : (system storage).Legal (fun _ _ => True) start steps) :
    Accounted ((system storage).run start steps) := by
  obtain ⟨hinv, events, hevents, hbox⟩ := run_leads DispatchInv.start hlegal
  have hempty : start.box = Outbox.empty := rfl
  refine accounted hinv ?_
  rw [← hbox]
  exact Outbox.sound_run hevents (hempty ▸ Outbox.sound_empty)

/-- No submission is lost on its way to the queue, whatever is interleaved, refused or stopped. -/
theorem dispatch_accounted (storage : Storage) (before later : List DispatchStep)
    (hlegal : (system storage).Legal (fun _ _ => True) start (before ++ later)) :
    Accounted ((system storage).run start before) ∧
      Settles ((system storage).run start before) ((system storage).run start (before ++ later)) := by
  obtain ⟨hbefore, hlater⟩ := GuardedSystem.legal_append.mp hlegal
  rw [GuardedSystem.run_append]
  exact ⟨accounted_run hbefore, settles (run_leads (run_leads .start hbefore).1 hlater).2⟩

end DispatchWorld

/-! A submission whose first hand-over is answered by a time-out is handed over again, cancelled, and
removed from the queue. -/
namespace Sample

def handedOverTwice : List DispatchStep :=
  [.operation (.submit candidate dispatch none), .read 1 "c", .enqueue 1 (.lost "TIMEOUT"),
    .markFailed 1 10 .done, .read 2 "c", .enqueue 2 .done, .mark 2 20 .done]

def cancelledAfterwards : List DispatchStep :=
  [.operation (.markDispatchCancelled "c" 30), .remove "c", .read 3 "c"]

theorem admits_handedOver (storage : Storage) :
    (DispatchWorld.system storage).Legal (fun _ _ => True) .start
      (handedOverTwice ++ cancelledAfterwards) := by
  cases storage <;>
  exact ⟨⟨⟨by decide, by decide⟩, trivial⟩, ⟨rfl, trivial⟩, ⟨⟨_, rfl⟩, trivial⟩,
    ⟨⟨_, _, rfl⟩, trivial⟩, ⟨rfl, trivial⟩, ⟨⟨_, rfl⟩, trivial⟩, ⟨⟨_, rfl⟩, trivial⟩,
    ⟨⟨by decide, by decide⟩, trivial⟩, ⟨trivial, trivial⟩, ⟨rfl, trivial⟩, trivial⟩

end Sample

theorem DispatchWorld.dispatch_accounted_handed_over_twice :
    ((DispatchWorld.system .postgres).run .start Sample.handedOverTwice).taken =
        [Sample.dispatch.job, Sample.dispatch.job] ∧
      Accounted ((DispatchWorld.system .postgres).run .start Sample.handedOverTwice) ∧
      Settles ((DispatchWorld.system .postgres).run .start Sample.handedOverTwice)
        ((DispatchWorld.system .postgres).run .start
          (Sample.handedOverTwice ++ Sample.cancelledAfterwards)) :=
  ⟨rfl, DispatchWorld.dispatch_accounted .postgres _ _ (Sample.admits_handedOver .postgres)⟩

namespace Redispatched

variable {R : BacktestDispatch → BacktestDispatch → Prop}
  {before after : Table BacktestDispatch.jobId} {jobId : String} {dispatch row : BacktestDispatch}

theorem later (h : Redispatched R before after) (hget : before.get? jobId = some dispatch) :
    ∃ row, after.get? jobId = some row ∧ R dispatch row := by
  have hrelated := h.related jobId
  rw [hget] at hrelated
  generalize after.get? jobId = found at hrelated
  cases hrelated with
  | @some _ row hrow => exact ⟨row, rfl, hrow⟩

theorem earlier (h : Redispatched R before after) (hget : after.get? jobId = some row) :
    ∃ dispatch, before.get? jobId = some dispatch ∧ R dispatch row := by
  have hrelated := h.related jobId
  rw [hget] at hrelated
  generalize before.get? jobId = found at hrelated
  cases hrelated with
  | @some dispatch _ hrow => exact ⟨dispatch, rfl, hrow⟩

end Redispatched

theorem MadePending.job {before after : BacktestDispatch} (h : MadePending before after) :
    after.job = before.job := by
  rcases h with rfl | ⟨-, -, hjob⟩
  · rfl
  · exact hjob

section Recovery

variable {storage : Storage} {ports : RecoveryPorts} {run : Recovery} {item : BacktestDispatch}
  {jobId : String}

/-- The dispatch of a job is stored and not cancelled. -/
def Live (state : RepositoryState) (jobId : String) : Prop :=
  ∃ dispatch, state.dispatches.get? jobId = some dispatch ∧ dispatch.state ≠ .cancelled

def Dispatched (state : RepositoryState) (jobId : String) : Prop :=
  ∃ dispatch, state.dispatches.get? jobId = some dispatch ∧ dispatch.state = .dispatched

theorem Dispatched.live {state : RepositoryState} (h : Dispatched state jobId) :
    Live state jobId := by
  obtain ⟨dispatch, hget, hstate⟩ := h
  refine ⟨dispatch, hget, ?_⟩
  rw [hstate]
  decide

/-- Marking one dispatch as dispatched keeps what is known of the others. -/
theorem markDispatchDispatched_keeps (state : RepositoryState) (marked : String) (now : Int) :
    (Live state jobId → Live (storage.markDispatchDispatched state marked now) jobId) ∧
      (Dispatched state jobId →
        Dispatched (storage.markDispatchDispatched state marked now) jobId) ∧
      (Live state marked → Dispatched (storage.markDispatchDispatched state marked now) marked) := by
  rcases markDispatchDispatched_cases storage state marked now with
    hsame | ⟨dispatch, hget, hlive, hput⟩
  · rw [hsame]
    refine ⟨id, id, fun hmarked => ?_⟩
    obtain ⟨dispatch, hget, hlive⟩ := hmarked
    have hput : storage.markDispatchDispatched state marked now =
        state.putDispatch (dispatch.sent now) := by
      cases storage <;>
      simp only [Storage.markDispatchDispatched, InMemory.markDispatchDispatched,
        Postgres.markDispatchDispatched, hget, if_neg hlive]
    have hkey : dispatch.jobId = marked := Table.key_of_get? hget
    refine ⟨dispatch.sent now, ?_, rfl⟩
    rw [← hsame, hput]
    exact Table.get?_put_of_eq _ hkey.symm
  · rw [hput]
    have hkey : dispatch.jobId = marked := Table.key_of_get? hget
    have hself : (state.putDispatch (dispatch.sent now)).dispatches.get? marked =
        some (dispatch.sent now) := Table.get?_put_of_eq _ hkey.symm
    have hother : jobId ≠ marked → (state.putDispatch (dispatch.sent now)).dispatches.get? jobId =
        state.dispatches.get? jobId := fun hne => Table.get?_put_of_ne _ (hkey ▸ hne)
    by_cases h : jobId = marked
    · subst h
      have hdispatched : Dispatched (state.putDispatch (dispatch.sent now)) jobId :=
        ⟨_, hself, rfl⟩
      exact ⟨fun _ => hdispatched.live, fun _ => hdispatched, fun _ => hdispatched⟩
    · simp only [Live, Dispatched, hother h]
      exact ⟨id, id, fun _ => ⟨_, hself, rfl⟩⟩

variable (htakes : ∀ job, job.valid = true → ports.deps.enqueue job = .ok ())

include htakes

/-- One turn before a queue that takes the job. -/
theorem dispatchListed_taken (hitem : item.state = .pending) (hvalid : item.job.valid = true) :
    (dispatchListed storage ports run item).repository =
      storage.markDispatchDispatched run.repository item.jobId (ports.dispatchedAt item.jobId) := by
  have hqueue := htakes item.job hvalid
  simp only [dispatchListed, dispatchOne, hitem, ne_eq, not_true_eq_false, ↓reduceIte, hqueue]

/-- Every dispatch listed is dispatched in the end, and one that was stays so. -/
theorem dispatchListed_foldl_dispatched {items : List BacktestDispatch}
    (hitems : ∀ item ∈ items, item.state = .pending ∧ item.job.valid = true) :
    (Dispatched run.repository jobId →
      Dispatched (items.foldl (dispatchListed storage ports) run).repository jobId) ∧
      (Live run.repository jobId → (∃ item ∈ items, item.jobId = jobId) →
        Dispatched (items.foldl (dispatchListed storage ports) run).repository jobId) := by
  induction items generalizing run with
  | nil => exact ⟨id, fun _ hnone => absurd hnone (by simp)⟩
  | cons item items ih =>
    obtain ⟨hpending, hvalid⟩ := hitems item List.mem_cons_self
    have hturn : (dispatchListed storage ports run item).repository = _ :=
      dispatchListed_taken htakes hpending hvalid
    obtain ⟨hlive, hdispatched, hmarked⟩ := @markDispatchDispatched_keeps storage jobId
      run.repository item.jobId (ports.dispatchedAt item.jobId)
    rw [← hturn] at hlive hdispatched hmarked
    obtain ⟨hstill, hlisted⟩ := @ih (dispatchListed storage ports run item)
      fun later hlater => hitems later (List.mem_cons_of_mem _ hlater)
    rw [List.foldl_cons]
    refine ⟨fun h => hstill (hdispatched h), fun h hmem => ?_⟩
    obtain ⟨found, hfound, hid⟩ := hmem
    rcases List.mem_cons.mp hfound with rfl | hrest
    · rw [← hid] at hstill h
      rw [← hid]
      exact hstill (hmarked h)
    · exact hlisted (hlive h) ⟨found, hrest, hid⟩

omit htakes in
theorem mem_listPendingDispatches (scan : Postgres.ScanOrder) {state : RepositoryState}
    {limit : Nat} {dispatch : BacktestDispatch}
    (hget : state.dispatches.get? jobId = some dispatch) (hstate : dispatch.state = .pending)
    (hlimit : state.dispatches.rows.length ≤ limit) :
    dispatch ∈ storage.listPendingDispatches scan state limit := by
  have hperm := dispatchesRead_perm storage scan state
  rw [listPendingDispatches_eq, List.take_of_length_le, List.mem_insertionSort]
  · exact List.mem_filter.mpr
      ⟨hperm.mem_iff.mpr (Table.mem_rows_of_get? hget), by rw [hstate]; rfl⟩
  · rw [List.length_insertionSort]
    exact (List.length_filter_le _ _).trans (hperm.length_eq.trans_le hlimit)

/-- After any run, one recovery before a queue that takes every job leaves no dispatch pending: a
candidate's job has reached the queue, unless its dispatch was cancelled. -/
theorem reconcile_delivers {steps : List DispatchStep} {replays : ReplayTable} {now : Int}
    {limit : JsNumber} {after : Recovery} {summary : ReconcileSummary}
    (hlegal : (DispatchWorld.system storage).Legal (fun _ _ => True) .start steps)
    (hlimit : ((DispatchWorld.system storage).run .start steps).repository.dispatches.rows.length ≤
      limit.toNat)
    (h : reconcileQueue storage ports ((DispatchWorld.system storage).run .start steps).repository
      replays now limit = .ok (after, summary))
    (candidateId : String)
    (hstored : (((DispatchWorld.system storage).run .start steps).world.stored candidateId).isSome) :
    ∃ dispatch row,
      ((DispatchWorld.system storage).run .start steps).dispatch? candidateId = some dispatch ∧
        after.repository.dispatches.get? candidateId = some row ∧ row.job = dispatch.job ∧
        (dispatch.state = .cancelled ∧ row.state = .cancelled ∨ row.state = .dispatched ∧
          (row.job ∈ ((DispatchWorld.system storage).run .start steps).taken ∨
            row.job ∈ after.sent)) := by
  have hinv := (DispatchWorld.run_leads DispatchInv.start hlegal).1
  have haccounted := (DispatchWorld.accounted_run hlegal).reached candidateId hstored
  generalize (DispatchWorld.system storage).run .start steps = w at *
  obtain ⟨dispatch, hdispatch, -, hreached⟩ := haccounted
  have hfirst : Redispatched MadePending w.repository.dispatches
      ((storage.listQueueRecoveryCandidates ports.scan w.repository limit.toNat).foldl
        (recoverListed storage now) w.repository).dispatches := recoverListed_foldl_redispatched _
  have hsecond := reconcileQueue_redispatched h
  have hafter := reconcileQueue_eq h
  generalize (storage.listQueueRecoveryCandidates ports.scan w.repository limit.toNat).foldl
    (recoverListed storage now) w.repository = recovered at hfirst hsecond hafter
  obtain ⟨between, hbetween, hmade⟩ := hfirst.later hdispatch
  obtain ⟨row, hrow, hsent⟩ := hsecond.later hbetween
  refine ⟨dispatch, row, hdispatch, hrow, hsent.job.trans hmade.job, ?_⟩
  have hitems : ∀ item ∈ storage.listPendingDispatches ports.scan recovered limit.toNat,
      item.state = .pending ∧ item.job.valid = true := by
    intro item hitem
    obtain ⟨hpending, hget⟩ := pending_of_mem hitem
    obtain ⟨earlier, hearlier, hsame⟩ := hfirst.earlier hget
    refine ⟨hpending, ?_⟩
    rw [hsame.job]
    exact (hinv.owned item.jobId earlier hearlier).2
  obtain ⟨hstays, hmarked⟩ := @dispatchListed_foldl_dispatched storage ports ⟨recovered, []⟩
    candidateId htakes _ hitems
  rw [← hafter] at hstays hmarked
  have hstate : Dispatched after.repository candidateId → row.state = .dispatched := by
    rintro ⟨found, hfound, hstate⟩
    cases hrow.symm.trans hfound
    exact hstate
  by_cases hcancelled : dispatch.state = .cancelled
  · obtain rfl : between = dispatch := hmade.resolve_right fun hlive => hlive.1 hcancelled
    exact .inl ⟨hcancelled, hsent.cancelled hcancelled⟩
  by_cases hpending : between.state = .pending
  · -- the dispatch is listed, so its job goes to the queue now
    have hrows : recovered.dispatches.rows.length ≤ limit.toNat := by
      have hlengths := congrArg List.length hfirst.jobs
      rw [List.length_map, List.length_map] at hlengths
      omega
    have hlive : Live recovered candidateId := ⟨between, hbetween, by rw [hpending]; decide⟩
    have hlisted : ∃ item ∈ storage.listPendingDispatches ports.scan recovered limit.toNat,
        item.jobId = candidateId :=
      ⟨between, mem_listPendingDispatches ports.scan hbetween hpending hrows,
        Table.key_of_get? hbetween⟩
    have hdone := hstate (hmarked hlive hlisted)
    rcases hsent.pending hpending with hstill | hqueued
    · cases hdone.symm.trans hstill
    · exact .inr ⟨hdone, .inr hqueued.2⟩
  · -- it was dispatched before, and recovery has left it alone
    obtain rfl : between = dispatch := hmade.resolve_right fun hlive => hpending hlive.2.1
    have htaken := (hreached.resolve_left hpending).resolve_left hcancelled
    have hdispatched : between.state = .dispatched := by
      cases hbetweenState : between.state <;> simp_all
    refine .inr ⟨hstate (hstays ⟨between, hbetween, hdispatched⟩), .inl ?_⟩
    rw [hsent.job]
    exact htaken

end Recovery

/-! The call that read the dispatch has stopped before it reached the queue. -/
namespace Sample

def stoppedDispatch : List DispatchStep :=
  [.operation (.submit candidate dispatch none), .read 1 "c", .stop 1]

theorem admits_stopped : (DispatchWorld.system .postgres).Legal (fun _ _ => True) .start
    stoppedDispatch :=
  ⟨⟨⟨by decide, by decide⟩, trivial⟩, ⟨rfl, trivial⟩, ⟨rfl, trivial⟩, trivial⟩

end Sample

theorem reconcile_delivers_stopped :
    ∃ after summary, reconcileQueue .postgres Sample.ports
        ((DispatchWorld.system .postgres).run .start Sample.stoppedDispatch).repository .empty 100000
        (.ofInt 100) = .ok (after, summary) ∧
      ∃ dispatch row,
        ((DispatchWorld.system .postgres).run .start Sample.stoppedDispatch).dispatch? "c" =
            some dispatch ∧
          after.repository.dispatches.get? "c" = some row ∧ row.job = dispatch.job ∧
          (dispatch.state = .cancelled ∧ row.state = .cancelled ∨ row.state = .dispatched ∧
            (row.job ∈ ((DispatchWorld.system .postgres).run .start Sample.stoppedDispatch).taken ∨
              row.job ∈ after.sent)) :=
  ⟨_, _, rfl, @reconcile_delivers .postgres Sample.ports (fun _ _ => rfl) Sample.stoppedDispatch .empty
    100000 (.ofInt 100) _ _ Sample.admits_stopped (by decide) rfl "c" rfl⟩

end Cryptox.Backtesting
