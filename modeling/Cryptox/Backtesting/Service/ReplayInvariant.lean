import Cryptox.Backtesting.Service.ReplaySettlement

/-!
# What runs over the records in memory keep

Requests name stored experiments, calls hold requests and outcomes come from verifications. A step
keeps all this, every request, and an outcome for good.
-/
namespace Cryptox.Backtesting

open Cryptox.Library
open Cryptox.Evaluation (EvaluationMetrics)

namespace ReplayWorld

variable {policyHash : NormalizedPolicy → String} {deps : Dependencies}
  {evaluate : CompletedBacktestResult → Except String EvaluationMetrics}

section Invariant

variable {w w' : ReplayWorld ReplayRecordTable}
  {events : List (DeskEvent String String ReplayOutcome)}

/-- A lookup after a write finds the record written, or what was there. -/
theorem get?_put_cases {replays : ReplayRecordTable} {written later : ReplayRecord}
    {replayJobId : String} (h : (replays.put written).get? replayJobId = some later) :
    later = written ∨ replays.get? replayJobId = some later := by
  by_cases hid : replayJobId = written.replayJobId
  · rw [Table.get?_put_of_eq replays hid] at h
    exact .inl (Option.some.inj h).symm
  · rw [Table.get?_put_of_ne replays hid] at h
    exact .inr h

/-- What a call hands to the repository is about the record stored. -/
theorem call_completes (h : ReplayInv policyHash deps evaluate w) {completion : ReplayCompletion}
    {record : ReplayRecord} (hrecord : w.replays.get? completion.replayJobId = some record)
    (hcall : ∃ callId claimed answer now, w.phase callId = some (.completing claimed answer) ∧
      completion = claimed.completion answer now) :
    completion.experimentId = record.experimentId ∧
      completion.sourceAttemptId = record.sourceAttemptId ∧ ∃ answer,
        Verified policyHash deps evaluate w.experiments record answer ∧
          completion.outcome = replayOutcome replayMismatchSampleLimit answer := by
  obtain ⟨callId, claimed, answer, now, hphase, rfl⟩ := hcall
  have hknown := h.calls callId _ hphase
  obtain ⟨stored, hstored, hsame⟩ := hknown.claimed claimed rfl
  obtain rfl : record = stored := Option.some.inj (hrecord.symm.trans hstored)
  have hverified := hknown.answered claimed answer rfl
  have hrequested := (h.records _ _ hrecord).requested
  obtain ⟨hexperiment, hsource⟩ := completion_names hrequested hsame hverified now
  refine ⟨hexperiment, hsource, answer,
    hverified.same hsame.experimentId.symm hsame.ownerUserId.symm, ?_⟩
  show replayOutcome claimed.mismatchSampleLimit answer = _
  rw [hsame.mismatchSampleLimit, hrequested.limit]

/-- A step keeps every request, and an outcome for good. -/
theorem kept_effect (h : ReplayInv policyHash deps evaluate w) (heffect : Effect w w' events)
    {replayJobId : String} {record : ReplayRecord}
    (hrecord : w.replays.get? replayJobId = some record) :
    ∃ later, w'.replays.get? replayJobId = some later ∧ record.SameRequest later ∧
      (record.outcome.isSome → later = record) := by
  -- what is written over the record, or leaves it alone
  have hput : ∀ {before written : ReplayRecord}, w'.replays = w.replays.put written →
      w.replays.get? written.replayJobId = some before → before.SameRequest written →
      before.outcome = none → ∃ later, w'.replays.get? replayJobId = some later ∧
        record.SameRequest later ∧ (record.outcome.isSome → later = record) := by
    intro before written hwritten hbefore hsame hnone
    rw [hwritten]
    by_cases hid : replayJobId = written.replayJobId
    · rw [Table.get?_put_of_eq w.replays hid]
      rw [← hid, hrecord] at hbefore
      obtain rfl := Option.some.inj hbefore
      refine ⟨written, rfl, hsame, fun hsome => ?_⟩
      rw [hnone] at hsome
      cases hsome
    · rw [Table.get?_put_of_ne w.replays hid]
      exact ⟨record, hrecord, .refl record, fun _ => rfl⟩
  cases heffect with
  | quiet hreplays =>
    rw [hreplays]
    exact ⟨record, hrecord, .refl record, fun _ => rfl⟩
  | created replay hnew hidle hrequested hreplays =>
    have hid : replayJobId ≠ replay.replayJobId := by
      rintro rfl
      rw [hnew] at hrecord
      cases hrecord
    rw [hreplays, Table.get?_put_of_ne w.replays hid]
    exact ⟨record, hrecord, .refl record, fun _ => rfl⟩
  | claimed claim before hbefore hwaiting hreplays =>
    have hunsettled := ReplayRecord.unsettled_of_waiting hwaiting
    refine hput hreplays ?_ (before.sameRequest_claimed claim hunsettled)
      (ReplayRecord.outcome_eq_none hunsettled)
    show w.replays.get? before.replayJobId = some before
    rw [key_of_record hbefore, hbefore]
  | completed completion before hbefore hheld hcall hreplays =>
    obtain ⟨hexperiment, hsource, -⟩ := call_completes h hbefore hcall
    have hrunning : before.status = .running := by
      simp only [ReplayRecord.heldBy, Bool.and_eq_true, beq_iff_eq] at hheld
      exact hheld.1.1
    refine hput hreplays ?_ (ReplayRecord.sameRequest_completed hexperiment hsource)
      (ReplayRecord.outcome_eq_none (by rw [hrunning]; rfl))
    show w.replays.get? before.replayJobId = some before
    rw [key_of_record hbefore, hbefore]

theorem sound_effect (h : ReplayInv policyHash deps evaluate w) (heffect : Effect w w' events)
    {replayJobId : String} {later : ReplayRecord}
    (hlater : w'.replays.get? replayJobId = some later) :
    Sound policyHash deps evaluate w.experiments later := by
  cases heffect with
  | quiet hreplays =>
    rw [hreplays] at hlater
    exact h.records _ _ hlater
  | created replay hnew hidle hrequested hreplays =>
    rw [hreplays] at hlater
    obtain rfl | hlater := get?_put_cases hlater
    · refine ⟨hrequested, fun outcome houtcome => ?_⟩
      rw [ReplayRecord.leased, houtcome] at hidle
      cases hidle
    · exact h.records _ _ hlater
  | claimed claim record hrecord hwaiting hreplays =>
    rw [hreplays] at hlater
    obtain rfl | hlater := get?_put_cases hlater
    · have hunsettled := ReplayRecord.unsettled_of_waiting hwaiting
      refine ⟨(h.records _ _ hrecord).requested.same (record.sameRequest_claimed claim hunsettled),
        fun outcome houtcome => ?_⟩
      have hnone : record.outcome = some outcome := houtcome
      rw [ReplayRecord.outcome_eq_none hunsettled] at hnone
      cases hnone
    · exact h.records _ _ hlater
  | completed completion record hrecord hheld hcall hreplays =>
    rw [hreplays] at hlater
    obtain rfl | hlater := get?_put_cases hlater
    · obtain ⟨hexperiment, hsource, answer, hverified, houtcome⟩ := call_completes h hrecord hcall
      refine ⟨(h.records _ _ hrecord).requested.same
        (ReplayRecord.sameRequest_completed hexperiment hsource), fun outcome hsome => ?_⟩
      obtain rfl := Option.some.inj hsome
      exact ⟨answer, hverified.same hexperiment rfl, houtcome⟩
    · exact h.records _ _ hlater

theorem Sound.mono {experiments others : ExperimentTable} {record : ReplayRecord}
    (h : Sound policyHash deps evaluate experiments record) (hmore : ∀ id experiment,
      experiments.get? id = some experiment → others.get? id = some experiment) :
    Sound policyHash deps evaluate others record := by
  refine ⟨h.requested.mono hmore, fun outcome houtcome => ?_⟩
  obtain ⟨answer, hverified, hanswer⟩ := h.settled outcome houtcome
  exact ⟨answer, hverified.mono hmore, hanswer⟩

/-- A phase stays known while requests are kept and experiments are added. -/
theorem Known.mono {phase : ReplayPhase} (h : Known policyHash deps evaluate w phase)
    (hmore : ∀ id experiment, w.experiments.get? id = some experiment →
      w'.experiments.get? id = some experiment)
    (hkept : ∀ replayJobId record, w.replays.get? replayJobId = some record →
      ∃ later, w'.replays.get? replayJobId = some later ∧ record.SameRequest later) :
    Known policyHash deps evaluate w' phase := by
  refine ⟨fun claimed hclaimed => ?_, fun claimed answer hphase =>
    (h.answered claimed answer hphase).mono hmore⟩
  obtain ⟨record, hrecord, hsame⟩ := h.claimed claimed hclaimed
  obtain ⟨later, hlater, hkept⟩ := hkept _ _ hrecord
  exact ⟨later, hlater, hkept.symm.trans hsame⟩

/-- Nothing is known to be wrong of a call that holds no request. -/
theorem known_of_idle {phase : ReplayPhase} (h : phase.claimed = none) :
    Known policyHash deps evaluate w phase := by
  constructor
  · intro claimed hclaimed
    rw [h] at hclaimed
    cases hclaimed
  · rintro claimed answer rfl
    cases h

theorem phase_setPhase (w : ReplayWorld ReplayRecordTable) (callId : Nat) (phase : ReplayPhase)
    (other : Nat) :
    (w.setPhase callId phase).phase other = if other = callId then some phase else w.phase other := by
  show ((w.calls.put ⟨callId, phase⟩).get? other).map ReplayCall.phase = _
  rw [Table.get?_put]
  split <;> rfl

/-- A call that moves to a known phase leaves only known phases. -/
theorem known_setPhase {callId other : Nat} {moved phase : ReplayPhase}
    (hmoved : Known policyHash deps evaluate (w.setPhase callId moved) moved)
    (h : (w.setPhase callId moved).phase other = some phase) :
    w.phase other = some phase ∨
      Known policyHash deps evaluate (w.setPhase callId moved) phase := by
  rw [phase_setPhase] at h
  split at h
  · exact .inr (Option.some.inj h ▸ hmoved)
  · exact .inl h

theorem known_claim {callId other : Nat} {claim : ReplayClaim} {phase : ReplayPhase}
    (h : (w.claimStep InMemory.replayStore callId claim).phase other = some phase) :
    w.phase other = some phase ∨
      Known policyHash deps evaluate (w.claimStep InMemory.replayStore callId claim) phase := by
  by_cases hfree : ∃ record, w.replays.get? claim.replayJobId = some record ∧
      record.waiting claim.now = true
  · obtain ⟨record, hrecord, hwaiting⟩ := hfree
    rw [claimStep_granted hrecord hwaiting] at h ⊢
    refine known_setPhase ⟨fun claimed hclaimed => ?_, fun _ _ hphase => by cases hphase⟩ h
    obtain rfl := Option.some.inj hclaimed
    exact ⟨_, Table.get?_put_of_eq w.replays rfl, .refl _⟩
  · rw [claimStep_refused fun record hrecord =>
      Bool.not_eq_true _ ▸ fun hwaiting => hfree ⟨record, hrecord, hwaiting⟩] at h ⊢
    exact known_setPhase (known_of_idle rfl) h

theorem known_complete {callId other : Nat} {completion : ReplayCompletion} {phase : ReplayPhase}
    (h : (w.completeStep InMemory.replayStore callId completion).phase other = some phase) :
    w.phase other = some phase ∨
      Known policyHash deps evaluate (w.completeStep InMemory.replayStore callId completion)
        phase := by
  by_cases hheld : ∃ record, w.replays.get? completion.replayJobId = some record ∧
      record.heldBy completion = true
  · obtain ⟨record, hrecord, hheld⟩ := hheld
    rw [completeStep_held hrecord hheld] at h ⊢
    exact known_setPhase (known_of_idle rfl) h
  · rw [completeStep_lost fun record hrecord =>
      Bool.not_eq_true _ ▸ fun hholds => hheld ⟨record, hrecord, hholds⟩] at h ⊢
    exact known_setPhase (known_of_idle rfl) h

theorem known_start {other : Nat} {userId experimentId replayJobId : String} {requestedAt : Int}
    {phase : ReplayPhase}
    (h : (w.startStep InMemory.replayStore userId experimentId replayJobId requestedAt).phase other =
      some phase) : w.phase other = some phase := by
  unfold startStep at h
  split at h
  · exact h
  · exact h

/-- A verification answers for the record that the call holds. -/
theorem known_verify (h : ReplayInv policyHash deps evaluate w) {callId : Nat}
    {claimed : ReplayRecord} (hphase : w.phase callId = some (.verifying claimed))
    (scopes : ScopeTable) (repository : RepositoryState) :
    Known policyHash deps evaluate w (.completing claimed (verifyReplay policyHash deps evaluate
      ⟨scopes, repository, w.experiments⟩ claimed.ownerUserId claimed.experimentId)) := by
  obtain ⟨record, hrecord, hsame⟩ := (h.calls callId _ hphase).claimed claimed rfl
  constructor
  · intro other hother
    obtain rfl := Option.some.inj hother
    exact ⟨record, hrecord, hsame⟩
  · rintro other answer ⟨⟩
    obtain ⟨experiment, hexperiment, -⟩ := (h.records _ _ hrecord).requested.experiment
    rw [← hsame.experimentId] at hexperiment
    exact ⟨experiment, _, hexperiment, hexperiment, rfl⟩

theorem known_next (h : ReplayInv policyHash deps evaluate w) {step : ReplayStep} {callId : Nat}
    {phase : ReplayPhase}
    (hphase : (w.next policyHash deps evaluate InMemory.replayStore step).phase callId = some phase) :
    w.phase callId = some phase ∨ Known policyHash deps evaluate
      (w.next policyHash deps evaluate InMemory.replayStore step) phase := by
  cases step with
  | stored experiment => exact .inl hphase
  | start userId experimentId replayJobId requestedAt => exact .inl (known_start hphase)
  | claim other replayJobId claimToken now => exact known_claim hphase
  | verify other scopes repository =>
    simp only [next] at hphase ⊢
    split at hphase
    next claimed hverifying =>
      have hknown := known_verify h hverifying scopes repository
      exact known_setPhase (hknown.mono (fun _ _ hsome => hsome) fun _ record hrecord =>
        ⟨record, hrecord, .refl record⟩) hphase
    next => exact .inl hphase
  | complete other now =>
    simp only [next] at hphase ⊢
    split at hphase
    next claimed answer hcompleting =>
      exact known_complete hphase
    next => exact .inl hphase
  | stop other => exact known_setPhase (known_of_idle rfl) hphase

/-- Experiments are only added, under new ids. -/
theorem experiments_next {step : ReplayStep} (henabled : w.enabled step) {id : String}
    {experiment : ExperimentRecord} (h : w.experiments.get? id = some experiment) :
    (w.next policyHash deps evaluate InMemory.replayStore step).experiments.get? id =
      some experiment := by
  cases step with
  | stored added =>
    have hne : id ≠ added.id := by
      rintro rfl
      have hnew : w.experiments.get? added.id = none := henabled
      rw [h] at hnew
      cases hnew
    exact (Table.get?_put_of_ne w.experiments hne).trans h
  | start userId experimentId replayJobId requestedAt =>
    simp only [next, startStep]
    split <;> exact h
  | claim callId replayJobId claimToken now =>
    simp only [next, claimStep]
    split <;> exact h
  | verify callId scopes repository =>
    simp only [next]
    split <;> exact h
  | complete callId now =>
    simp only [next, completeStep]
    split
    · split <;> exact h
    · exact h
  | stop callId => exact h

theorem replayInv_next {step : ReplayStep} (h : ReplayInv policyHash deps evaluate w)
    (henabled : w.enabled step) :
    ReplayInv policyHash deps evaluate
      (w.next policyHash deps evaluate InMemory.replayStore step) := by
  obtain ⟨events, heffect⟩ := @effect_next w policyHash deps evaluate step
  constructor
  · intro replayJobId record hrecord
    exact (sound_effect h heffect hrecord).mono fun _ _ hsome => experiments_next henabled hsome
  · intro callId phase hphase
    obtain hbefore | hknown := known_next h hphase
    · refine (h.calls callId phase hbefore).mono (fun _ _ hsome => experiments_next henabled hsome)
        fun _ _ hrecord => ?_
      obtain ⟨later, hlater, hsame, -⟩ := kept_effect h heffect hrecord
      exact ⟨later, hlater, hsame⟩
    · exact hknown

end Invariant

section InMemoryRuns

variable {w : ReplayWorld ReplayRecordTable} {steps : List ReplayStep}

theorem replayInv_run
    (hlegal : (system policyHash deps evaluate InMemory.replayStore).Legal (fun _ _ => True) w steps)
    (h : ReplayInv policyHash deps evaluate w) : ReplayInv policyHash deps evaluate
      ((system policyHash deps evaluate InMemory.replayStore).run w steps) :=
  hlegal.invariant (ReplayInv policyHash deps evaluate)
    (fun _ _ hinv henabled _ => replayInv_next hinv henabled) h

/-- A whole run keeps every request, and an outcome for good. -/
theorem kept_run
    (hlegal : (system policyHash deps evaluate InMemory.replayStore).Legal (fun _ _ => True) w steps)
    (h : ReplayInv policyHash deps evaluate w) {replayJobId : String} {record : ReplayRecord}
    (hrecord : w.replays.get? replayJobId = some record) :
    ∃ later, ((system policyHash deps evaluate InMemory.replayStore).run w steps).replays.get?
        replayJobId = some later ∧ record.SameRequest later ∧
      (record.outcome.isSome → later = record) := by
  refine hlegal.stable (ReplayInv policyHash deps evaluate) (fun s => ∃ later,
    s.replays.get? replayJobId = some later ∧ record.SameRequest later ∧
      (record.outcome.isSome → later = record))
    (fun _ _ hinv henabled _ => replayInv_next hinv henabled) ?_ h
    ⟨record, hrecord, .refl record, fun _ => rfl⟩
  rintro s step hinv ⟨later, hlater, hsame, hfixed⟩ henabled -
  obtain ⟨events, heffect⟩ := @effect_next s policyHash deps evaluate step
  obtain ⟨last, hlast, hlastSame, hlastFixed⟩ := kept_effect hinv heffect hlater
  refine ⟨last, hlast, hsame.trans hlastSame, fun hsome => ?_⟩
  obtain rfl := hfixed hsome
  exact hlastFixed hsome

/-- A lease is a minute. -/
theorem leases_run
    (hlegal : (system policyHash deps evaluate InMemory.replayStore).Legal (fun _ _ => True) w steps)
    (h : ∀ grant ∈ w.grants, grant.expiresAt = grant.grantedAt + replayLeaseMs) :
    ∀ grant ∈ ((system policyHash deps evaluate InMemory.replayStore).run w steps).grants,
      grant.expiresAt = grant.grantedAt + replayLeaseMs := by
  refine hlegal.invariant (fun s => ∀ grant ∈ s.grants,
    grant.expiresAt = grant.grantedAt + replayLeaseMs) ?_ h
  intro s step hgrants _ _
  obtain ⟨events, heffect⟩ := @effect_next s policyHash deps evaluate step
  show ∀ grant ∈ (s.next policyHash deps evaluate InMemory.replayStore step).grants, _
  cases heffect with
  | quiet hreplays hsame =>
    rw [hsame]
    exact hgrants
  | created replay hnew hidle hrequested hreplays hsame =>
    rw [hsame]
    exact hgrants
  | claimed claim record hrecord hwaiting hreplays hlease hadded =>
    rw [hadded]
    intro grant hgrant
    rcases List.mem_cons.mp hgrant with rfl | hgrant
    · exact hlease
    · exact hgrants grant hgrant
  | completed completion record hrecord hheld hcall hreplays hsame =>
    rw [hsame]
    exact hgrants

end InMemoryRuns

end ReplayWorld

end Cryptox.Backtesting
