import Cryptox.Library.Indexed
import Cryptox.Library.Exclusive
import Cryptox.Backtesting.Repository.Queue
import Cryptox.Backtesting.Service.Creation
import Cryptox.Backtesting.Service.ReplayVerification

/-!
# Idempotent creation

In the database a key is unique, so whoever comes second throws. The in-memory repository looks a
key up and writes it one await later: as long as every write finds its key still free, there is one
candidate and one scope for a key, and every successful call answers with it.
-/
namespace Cryptox.Backtesting

open Cryptox.Library

def SubmissionRequest.ownerKey (request : SubmissionRequest) : Option (String × String) :=
  request.submissionIdempotencyKey.map fun key => (request.ownerUserId, key)

theorem SubmissionRequest.ownerKey_of_key {request : SubmissionRequest} {key : String}
    (h : request.submissionIdempotencyKey = some key) :
    request.ownerKey = some (request.ownerUserId, key) := by
  rw [ownerKey, h]
  rfl

def ScopeRequest.ownerKey (request : ScopeRequest) : String × String :=
  (request.ownerUserId, request.scopeIdempotencyKey)

namespace CreationWorld

variable (w : CreationWorld)

/-- The owner and the key of the call that generated a candidate's id. -/
def keyOf (candidateId : String) : Option (String × String) :=
  (w.submissions.get? candidateId).bind fun call => call.request.ownerKey

/-- The owner and the key under which a stored candidate was submitted. -/
def submittedUnder (candidateId : String) : Option (String × String) :=
  (w.world.stored candidateId).bind fun _ => w.keyOf candidateId

def candidateIndex : String × String → Option String :=
  w.repository.candidateIdempotency.holding fun row => some row.candidateId

/-- The owner and the key under which a stored scope was created. -/
def createdUnder (scopeId : String) : Option (String × String) :=
  (w.scopes.scopes.get? scopeId).bind fun _ =>
    (w.creations.get? scopeId).map fun call => call.request.ownerKey

def scopeIndex : String × String → Option String :=
  w.scopes.scopeIdempotency.holding fun row => some row.scopeId

/-- For an owner and a key there is one candidate, one dispatch and one scope at most, and every call
that succeeds answers with the one that is stored. -/
structure Idempotent : Prop where
  candidate : ∀ key candidateId candidateId', w.submittedUnder candidateId = some key →
    w.submittedUnder candidateId' = some key → candidateId = candidateId'
  dispatch : ∀ key, ∀ dispatch ∈ w.repository.dispatches.rows,
    ∀ dispatch' ∈ w.repository.dispatches.rows, w.keyOf dispatch.candidateId = some key →
      w.keyOf dispatch'.candidateId = some key → dispatch = dispatch'
  accepted : ∀ call ∈ w.submissions.rows, ∀ key accepted, call.request.ownerKey = some key →
    call.phase = .returned (.ok accepted) → w.submittedUnder accepted.candidateId = some key
  scope : ∀ key scopeId scopeId', w.createdUnder scopeId = some key →
    w.createdUnder scopeId' = some key → scopeId = scopeId'
  returned : ∀ call ∈ w.creations.rows, ∀ scope, call.phase = .returned (.ok scope) →
    w.scopes.scopes.get? scope.id = some scope ∧
      w.createdUnder scope.id = some call.request.ownerKey

/-- In memory a key is not empty, and it is still free where a record is written under it. -/
def KeepsKeys (storage : Storage) : CreationStep → Prop
  | .submission candidateId .create => storage = .inMemory →
      ∀ call ∈ w.submissions.get? candidateId, ∀ key ∈ call.request.submissionIdempotencyKey,
        key ≠ "" ∧ storage.findCandidateBySubmission w.repository call.request.ownerUserId key = none
  | .creation scopeId .create => storage = .inMemory →
      ∀ call ∈ w.creations.get? scopeId,
        w.scopes.findScopeByIdempotency call.request.ownerUserId call.request.scopeIdempotencyKey
          = none
  | _ => True

instance (storage : Storage) : ∀ step, Decidable (w.KeepsKeys storage step)
  | .submission _ .create =>
    inferInstanceAs (Decidable (storage = .inMemory → ∀ call ∈ _, ∀ key ∈ _, _))
  | .creation _ .create => inferInstanceAs (Decidable (storage = .inMemory → ∀ call ∈ _, _))
  | .submission _ .lookUp | .submission _ (.prepare _) | .submission _ .recheck
  | .submission _ .queue | .submission _ .readDispatch | .submission _ (.dispatchOne ..)
  | .submission _ (.fail _) | .creation _ .lookUp | .creation _ (.capture ..)
  | .creation _ .answer | .creation _ (.fail _) | .operation _ | .submit ..
  | .createBenchmarkScope .. => inferInstanceAs (Decidable True)

end CreationWorld

namespace SubmissionPhase

/-- The call has stored no candidate of its own yet. -/
def unstored : SubmissionPhase → Bool
  | started | lookedUp | prepared .. | rechecked .. => true
  | _ => false

/-- The records that are to be stored. -/
def record? : SubmissionPhase → Option (StoredCandidate × BacktestDispatch)
  | prepared candidate dispatch | rechecked candidate dispatch | created candidate dispatch =>
    some (candidate, dispatch)
  | _ => none

/-- The candidate that the call answers with, or is about to answer with. -/
def accepted? : SubmissionPhase → Option String
  | saved candidate _ | dispatching candidate _ => some candidate.candidateId
  | returned (.ok accepted) => some accepted.candidateId
  | _ => none

end SubmissionPhase

/-- The call has stored no scope yet. -/
def ScopePhase.unstored : ScopePhase → Bool
  | started | lookedUp | captured _ => true
  | _ => false

/-- The records are made for the call: of its owner, under its id. -/
structure SubmissionCall.Prepared (call : SubmissionCall) (candidate : StoredCandidate)
    (dispatch : BacktestDispatch) : Prop where
  candidateId : candidate.candidateId = call.candidateId
  ownerUserId : candidate.ownerUserId = call.request.ownerUserId
  jobId : dispatch.jobId = call.candidateId
  queued : dispatch.candidateId = call.candidateId
  manual : call.request.submissionIdempotencyKey.isSome → candidate.searchRunId = none

structure CreationWorld.SubmissionInv (w : CreationWorld) (call : SubmissionCall) : Prop where
  keyless : call.request.origin = .search → call.request.submissionIdempotencyKey = none
  fresh : call.phase.unstored = true → w.world.stored call.candidateId = none
  own : ∀ candidate dispatch, call.phase.record? = some (candidate, dispatch) →
    call.Prepared candidate dispatch
  created : ∀ candidate dispatch, call.phase = .created candidate dispatch →
    (w.world.stored call.candidateId).isSome
  accepted : ∀ candidateId, call.phase.accepted? = some candidateId →
    ∀ key, call.request.ownerKey = some key → w.submittedUnder candidateId = some key

structure CreationWorld.ScopeInv (w : CreationWorld) (call : ScopeCall) : Prop where
  fresh : call.phase.unstored = true → w.scopes.scopes.get? call.scopeId = none
  own : ∀ scope, call.phase = .captured scope →
    scope.id = call.scopeId ∧ scope.ownerUserId = call.request.ownerUserId
  stored : ∀ scope, (call.phase = .created scope ∨ call.phase = .returned (.ok scope)) →
    w.scopes.scopes.get? scope.id = some scope ∧
      w.createdUnder scope.id = some call.request.ownerKey

/-- What holds of the candidates in every state. -/
structure CreationWorld.CandidatesInv (w : CreationWorld) : Prop where
  sourced : w.world.Sourced
  made : ∀ candidateId, (w.world.stored candidateId).isSome →
    (w.submissions.get? candidateId).isSome
  indexed : Indexed w.submittedUnder w.candidateIndex
  queued : ∀ jobId dispatch, w.repository.dispatches.get? jobId = some dispatch →
    dispatch.candidateId = jobId ∧ (w.world.stored jobId).isSome
  calls : ∀ candidateId call, w.submissions.get? candidateId = some call → w.SubmissionInv call

/-- What holds of the scopes in every state. -/
structure CreationWorld.ScopesInv (w : CreationWorld) : Prop where
  made : ∀ scopeId, (w.scopes.scopes.get? scopeId).isSome → (w.creations.get? scopeId).isSome
  indexed : Indexed w.createdUnder w.scopeIndex
  calls : ∀ scopeId call, w.creations.get? scopeId = some call → w.ScopeInv call

theorem searchRunId_of_manual {policyHash : NormalizedPolicy → String} {deps : Dependencies}
    {scopes : ScopeTable} {command : StartBacktestCommand} {request : SubmissionRequest}
    {scope : StoredBenchmarkScope} {candidate : StoredCandidate}
    (h : prepareSubmission policyHash deps scopes command request = .ok (scope, candidate))
    (horigin : request.origin ≠ .search) : candidate.searchRunId = none := by
  simp only [prepareSubmission, bind_eq_ok, pure_eq_ok] at h
  obtain ⟨scope', -, references, -, _, -, candles, -, _, -, _, -, policy, -, record, hrecord,
    hpair⟩ := h
  obtain ⟨rfl, rfl⟩ := Prod.mk.inj hpair
  simp only [candidateRecord, bind_eq_ok, pure_eq_ok] at hrecord
  obtain ⟨_, -, rfl⟩ := hrecord
  exact if_neg (by simpa using horigin)

namespace CreationWorld

variable {w : CreationWorld} {call : SubmissionCall}

theorem submittedUnder_eq_some {candidateId : String} {key : String × String} :
    w.submittedUnder candidateId = some key ↔
      (w.world.stored candidateId).isSome ∧ w.keyOf candidateId = some key := by
  rw [submittedUnder, Option.bind_eq_some_iff, Option.isSome_iff_exists]
  constructor
  · rintro ⟨candidate, hstored, hkey⟩
    exact ⟨⟨candidate, hstored⟩, hkey⟩
  · rintro ⟨⟨candidate, hstored⟩, hkey⟩
    exact ⟨candidate, hstored, hkey⟩

theorem keyOf_of_get? {candidateId : String} (h : w.submissions.get? candidateId = some call) :
    w.keyOf candidateId = call.request.ownerKey := by
  rw [keyOf, h]
  rfl

/-- What a look-up under a key finds was submitted under it. -/
theorem found_under (h : w.CandidatesInv) (storage : Storage) {ownerUserId key : String}
    {candidate : StoredCandidate}
    (hfound : storage.findCandidateBySubmission w.repository ownerUserId key = some candidate) :
    w.submittedUnder candidate.candidateId = some (ownerUserId, key) := by
  have hbind : (w.repository.candidateIdempotency.get? (ownerUserId, key)).bind
      (fun row => w.repository.candidates.get? row.candidateId) = some candidate := by
    cases storage <;> exact hfound
  obtain ⟨row, hrow, hstored⟩ := Option.bind_eq_some_iff.mp hbind
  have hid : candidate.candidateId = row.candidateId := Table.key_of_get? hstored
  apply h.indexed.sound
  rw [candidateIndex, Table.holding_of_get? hrow, hid]

/-- A key under which nothing is found is free. -/
theorem free_of_not_found (h : w.CandidatesInv) (storage : Storage) {ownerUserId key : String}
    (hnone : storage.findCandidateBySubmission w.repository ownerUserId key = none) :
    w.candidateIndex (ownerUserId, key) = none := by
  have hbind : (w.repository.candidateIdempotency.get? (ownerUserId, key)).bind
      (fun row => w.repository.candidates.get? row.candidateId) = none := by
    cases storage <;> exact hnone
  cases hrow : w.repository.candidateIdempotency.get? (ownerUserId, key) with
  | none =>
    rw [candidateIndex, Table.holding, hrow]
    rfl
  | some row =>
    have hindex : w.candidateIndex (ownerUserId, key) = some row.candidateId := by
      rw [candidateIndex, Table.holding_of_get? hrow]
    have hstored := (submittedUnder_eq_some.mp (h.indexed.sound _ _ hindex)).1
    rw [hrow, Option.bind_some] at hbind
    rw [World.stored, show w.world.repository.candidates.get? row.candidateId = none from hbind]
      at hstored
    cases hstored

theorem SubmissionInv.mono {w' : CreationWorld} (h : w.SubmissionInv call)
    (hfresh : call.phase.unstored = true → w'.world.stored call.candidateId = none)
    (hstored : ∀ candidateId, (w.world.stored candidateId).isSome →
      (w'.world.stored candidateId).isSome)
    (hunder : ∀ candidateId key, w.submittedUnder candidateId = some key →
      w'.submittedUnder candidateId = some key) : w'.SubmissionInv call where
  keyless := h.keyless
  fresh := hfresh
  own := h.own
  created := fun candidate dispatch hphase => hstored _ (h.created candidate dispatch hphase)
  accepted := fun candidateId hphase key hkey => hunder _ _ (h.accepted candidateId hphase key hkey)

theorem keyOf_submissionMoved (hcall : w.submissions.get? call.candidateId = some call)
    (repository : RepositoryState) (phase : SubmissionPhase) :
    (w.submissionMoved call repository phase).keyOf = w.keyOf := by
  funext candidateId
  by_cases hid : candidateId = call.candidateId
  · have hmoved : (w.submissionMoved call repository phase).submissions.get? candidateId =
        some { call with phase } := Table.get?_put_of_eq w.submissions hid
    rw [keyOf_of_get? hmoved, hid, keyOf_of_get? hcall]
  · have hmoved : (w.submissionMoved call repository phase).submissions.get? candidateId =
        w.submissions.get? candidateId := Table.get?_put_of_ne w.submissions hid
    rw [keyOf, hmoved]
    rfl

/-- The calls after a call has moved on: itself, and the others as they were. -/
theorem get?_submissionMoved {repository : RepositoryState} {phase : SubmissionPhase}
    {candidateId : String} {other : SubmissionCall}
    (h : (w.submissionMoved call repository phase).submissions.get? candidateId = some other) :
    (candidateId = call.candidateId ∧ other = { call with phase }) ∨
      (candidateId ≠ call.candidateId ∧ w.submissions.get? candidateId = some other) := by
  change (w.submissions.put { call with phase }).get? candidateId = some other at h
  rw [Table.get?_put] at h
  split at h
  next hid =>
    cases h
    exact Or.inl ⟨hid, rfl⟩
  next hid => exact Or.inr ⟨hid, h⟩

theorem isSome_submissionMoved {repository : RepositoryState} {phase : SubmissionPhase}
    {candidateId : String} (h : (w.submissions.get? candidateId).isSome) :
    ((w.submissionMoved call repository phase).submissions.get? candidateId).isSome := by
  change ((w.submissions.put { call with phase }).get? candidateId).isSome
  rw [Table.get?_put]
  split
  · rfl
  · exact h

/-- A move that leaves candidates and keys as they are. -/
theorem candidatesInv_quiet (h : w.CandidatesInv)
    (hcall : w.submissions.get? call.candidateId = some call) {repository : RepositoryState}
    {phase : SubmissionPhase} (hcandidates : repository.candidates = w.repository.candidates)
    (hqueue : KeepsQueue w.repository repository)
    (hnew : w.SubmissionInv { call with phase }) :
    (w.submissionMoved call repository phase).CandidatesInv := by
  have hstored : (w.submissionMoved call repository phase).world.stored = w.world.stored := by
    funext candidateId
    exact congrArg (·.get? candidateId) hcandidates
  have hunder : (w.submissionMoved call repository phase).submittedUnder = w.submittedUnder := by
    funext candidateId
    rw [submittedUnder, submittedUnder, hstored, keyOf_submissionMoved hcall]
  have hindex : (w.submissionMoved call repository phase).candidateIndex = w.candidateIndex :=
    congrArg (fun keys : Table SubmissionKey.ofOwner => keys.holding fun row => some row.candidateId)
      hqueue.keys
  have hsame : ∀ {other : SubmissionCall}, w.SubmissionInv other →
      (w.submissionMoved call repository phase).SubmissionInv other := by
    intro other hother
    apply hother.mono
    · rw [hstored]
      exact hother.fresh
    · rw [hstored]
      exact fun _ hid => hid
    · rw [hunder]
      exact fun _ _ hid => hid
  constructor
  · intro copy hmem
    obtain ⟨stored, hget, hsubmitted⟩ := h.sourced copy hmem
    exact ⟨stored, (congrFun hstored _).trans hget, hsubmitted⟩
  · intro candidateId hsome
    rw [hstored] at hsome
    exact isSome_submissionMoved (h.made candidateId hsome)
  · rw [hunder, hindex]
    exact h.indexed
  · intro jobId dispatch hget
    obtain ⟨before, hbefore, hcandidate⟩ := hqueue.dispatches jobId dispatch hget
    rw [hstored, hcandidate]
    exact h.queued jobId before hbefore
  · intro candidateId other hget
    rcases get?_submissionMoved hget with ⟨-, rfl⟩ | ⟨-, hother⟩
    · exact hsame hnew
    · exact hsame (h.calls candidateId other hother)

/-- A move that stores the call's own candidate, under a free key if under any. -/
theorem candidatesInv_stored (h : w.CandidatesInv)
    (hcall : w.submissions.get? call.candidateId = some call) {repository : RepositoryState}
    {phase : SubmissionPhase} (row : StoredCandidate)
    (hfresh : w.world.stored call.candidateId = none) (hrow : row.candidateId = call.candidateId)
    (hcandidates : repository.candidates = w.repository.candidates.put row)
    (hindexed : ∀ key, call.request.ownerKey = some key → w.candidateIndex key = none ∧
      (w.submissionMoved call repository phase).candidateIndex =
        Function.update w.candidateIndex key (some call.candidateId))
    (hkeyless : call.request.ownerKey = none →
      (w.submissionMoved call repository phase).candidateIndex = w.candidateIndex)
    (hqueued : ∀ jobId dispatch, repository.dispatches.get? jobId = some dispatch →
      (jobId = call.candidateId ∧ dispatch.candidateId = jobId) ∨
        w.repository.dispatches.get? jobId = some dispatch)
    (hkeys : call.request.origin = .search → call.request.submissionIdempotencyKey = none)
    (hunstored : phase.unstored = false)
    (hown : ∀ candidate dispatch, phase.record? = some (candidate, dispatch) →
      call.Prepared candidate dispatch)
    (haccepted : ∀ candidateId, phase.accepted? = some candidateId →
      candidateId = call.candidateId) :
    (w.submissionMoved call repository phase).CandidatesInv := by
  have hself : (w.submissionMoved call repository phase).world.stored call.candidateId = some row := by
    change repository.candidates.get? call.candidateId = some row
    rw [hcandidates]
    exact Table.get?_put_of_eq _ hrow.symm
  have hother : ∀ candidateId, candidateId ≠ call.candidateId →
      (w.submissionMoved call repository phase).world.stored candidateId =
        w.world.stored candidateId := by
    intro candidateId hne
    change repository.candidates.get? candidateId = w.world.repository.candidates.get? candidateId
    rw [hcandidates]
    exact Table.get?_put_of_ne _ (hrow ▸ hne)
  have hgrown : ∀ candidateId, (w.world.stored candidateId).isSome →
      ((w.submissionMoved call repository phase).world.stored candidateId).isSome := by
    intro candidateId hsome
    by_cases hid : candidateId = call.candidateId
    · rw [hid, hself]
      rfl
    · rw [hother candidateId hid]
      exact hsome
  have hunder : (w.submissionMoved call repository phase).submittedUnder =
      Function.update w.submittedUnder call.candidateId call.request.ownerKey := by
    funext candidateId
    by_cases hid : candidateId = call.candidateId
    · rw [hid, Function.update_self, submittedUnder, hself, keyOf_submissionMoved hcall,
        keyOf_of_get? hcall]
      rfl
    · rw [Function.update_of_ne hid, submittedUnder, submittedUnder, hother candidateId hid,
        keyOf_submissionMoved hcall]
  have hnew : w.submittedUnder call.candidateId = none := by
    rw [submittedUnder, hfresh]
    rfl
  have hkept : ∀ candidateId key, w.submittedUnder candidateId = some key →
      (w.submissionMoved call repository phase).submittedUnder candidateId = some key := by
    intro candidateId key hunderKey
    have hne : candidateId ≠ call.candidateId := by
      intro hid
      rw [hid, hnew] at hunderKey
      cases hunderKey
    rw [hunder, Function.update_of_ne hne]
    exact hunderKey
  constructor
  · intro copy hmem
    obtain ⟨stored, hget, hsubmitted⟩ := h.sourced copy hmem
    have hne : copy.candidateId ≠ call.candidateId := by
      intro hid
      rw [hid, hfresh] at hget
      cases hget
    exact ⟨stored, (hother _ hne).trans hget, hsubmitted⟩
  · intro candidateId hsome
    by_cases hid : candidateId = call.candidateId
    · rw [hid]
      exact isSome_submissionMoved (by rw [hcall]; rfl)
    · rw [hother candidateId hid] at hsome
      exact isSome_submissionMoved (h.made candidateId hsome)
  · rw [hunder]
    cases hkey : call.request.ownerKey with
    | none =>
      rw [hkeyless hkey, ← hnew, Function.update_eq_self]
      exact h.indexed
    | some key =>
      obtain ⟨hfree, hindex⟩ := hindexed key hkey
      rw [hindex]
      exact h.indexed.record hfree hnew
  · intro jobId dispatch hget
    rcases hqueued jobId dispatch hget with ⟨rfl, hdispatch⟩ | hold
    · refine ⟨hdispatch, ?_⟩
      rw [hself]
      rfl
    · exact ⟨(h.queued jobId dispatch hold).1, hgrown _ (h.queued jobId dispatch hold).2⟩
  · intro candidateId other hget
    rcases get?_submissionMoved hget with ⟨-, rfl⟩ | ⟨hne, hcalled⟩
    · refine ⟨hkeys, fun hphase => ?_, fun candidate dispatch hphase => ?_, fun _ _ _ => ?_,
        fun candidateId hphase key hkey => ?_⟩
      · exact absurd (hphase.symm.trans hunstored) (by decide)
      · obtain ⟨hid, howner, hjob, hqueue, hmanual⟩ := hown candidate dispatch hphase
        exact ⟨hid, howner, hjob, hqueue, hmanual⟩
      · change ((w.submissionMoved call repository phase).world.stored call.candidateId).isSome
        rw [hself]
        rfl
      · rw [haccepted candidateId hphase, hunder, Function.update_self]
        exact hkey
    · have hid : other.candidateId = candidateId := Table.key_of_get? hcalled
      apply (h.calls candidateId other hcalled).mono _ hgrown hkept
      intro hphase
      rw [hother _ (hid ▸ hne)]
      exact (h.calls candidateId other hcalled).fresh hphase

/-- A phase in which nothing is to be stored any more. -/
theorem submissionInv_settled (h : w.SubmissionInv call) {phase : SubmissionPhase}
    (hunstored : phase.unstored = false) (hrecord : phase.record? = none)
    (haccepted : ∀ candidateId, phase.accepted? = some candidateId →
      ∀ key, call.request.ownerKey = some key → w.submittedUnder candidateId = some key) :
    w.SubmissionInv { call with phase } := by
  refine ⟨h.keyless, fun hphase => ?_, fun candidate dispatch hphase => ?_,
    fun candidate dispatch hphase => ?_, haccepted⟩
  · exact absurd (hphase.symm.trans hunstored) (by decide)
  · exact absurd (hphase.symm.trans hrecord) nofun
  · change phase = .created candidate dispatch at hphase
    rw [hphase] at hrecord
    cases hrecord

theorem submissionInv_failed (h : w.SubmissionInv call) (error : String) :
    w.SubmissionInv { call with phase := .returned (.error error) } :=
  submissionInv_settled h rfl rfl nofun

/-- A phase that goes on with records of the call, before anything is stored. -/
theorem submissionInv_prepared (h : w.SubmissionInv call) {phase : SubmissionPhase}
    (hfresh : w.world.stored call.candidateId = none)
    (hown : ∀ candidate dispatch, phase.record? = some (candidate, dispatch) →
      call.Prepared candidate dispatch)
    (hunstored : phase.unstored = true) : w.SubmissionInv { call with phase } := by
  refine ⟨h.keyless, fun _ => hfresh, fun candidate dispatch hphase => ?_,
    fun candidate dispatch hphase => ?_, fun candidateId hphase => ?_⟩
  · obtain ⟨hid, howner, hjob, hqueue, hmanual⟩ := hown candidate dispatch hphase
    exact ⟨hid, howner, hjob, hqueue, hmanual⟩
  · change phase = .created candidate dispatch at hphase
    rw [hphase] at hunstored
    cases hunstored
  · change phase.accepted? = some candidateId at hphase
    cases phase with
    | started | lookedUp | prepared | rechecked => cases hphase
    | _ => cases hunstored

theorem submissionInv_lookUp (h : w.CandidatesInv) (storage : Storage) (hinv : w.SubmissionInv call)
    (hphase : call.phase = .started) :
    w.SubmissionInv { call with phase := call.afterLookUp storage w.repository } := by
  have hfresh := hinv.fresh (by rw [hphase]; rfl)
  unfold SubmissionCall.afterLookUp
  split
  · exact submissionInv_failed hinv _
  · split
    next existing hexisting =>
      apply submissionInv_settled hinv rfl rfl
      intro candidateId haccepted key hkey
      obtain ⟨given, hgiven, hfound⟩ := Option.bind_eq_some_iff.mp hexisting
      have hid : existing.candidateId = candidateId := Option.some.inj haccepted
      rw [SubmissionRequest.ownerKey_of_key (Option.filter_eq_some_iff.mp hgiven).1] at hkey
      rw [← hid, found_under h storage hfound]
      exact hkey
    next =>
      apply submissionInv_prepared hinv hfresh _ rfl
      intro candidate dispatch hrecord
      cases hrecord

theorem submissionInv_prepare {policyHash : NormalizedPolicy → String} {deps : Dependencies}
    (hinv : w.SubmissionInv call) (hphase : call.phase = .lookedUp) :
    w.SubmissionInv
      { call with phase := call.afterPrepare policyHash w.scopes.scopes deps } := by
  have hfresh := hinv.fresh (by rw [hphase]; rfl)
  unfold SubmissionCall.afterPrepare
  split
  next scope candidate hprepared =>
    apply submissionInv_prepared hinv hfresh _ rfl
    intro candidate' dispatch hrecord
    cases hrecord
    obtain ⟨hid, howner, -, -⟩ := prepareSubmission_owned hprepared
    refine ⟨hid, howner, hid, hid, fun hkey => ?_⟩
    have horigin : call.request.origin ≠ .search := by
      intro hsearch
      rw [hinv.keyless hsearch] at hkey
      cases hkey
    exact searchRunId_of_manual hprepared horigin
  next => exact submissionInv_failed hinv _

theorem findIteration_of_manual {candidate : StoredCandidate} {dispatch : BacktestDispatch}
    (hprepared : call.Prepared candidate dispatch) {key : String × String}
    (hkey : call.request.ownerKey = some key) (repository : RepositoryState) :
    InMemory.findIteration repository candidate = none ∧
      Postgres.findIteration repository candidate = none := by
  have hmanual : candidate.searchRunId = none := by
    apply hprepared.manual
    obtain ⟨given, hgiven, -⟩ := Option.map_eq_some_iff.mp hkey
    rw [hgiven]
    rfl
  rw [InMemory.findIteration, Postgres.findIteration, hmanual]
  exact ⟨rfl, rfl⟩

theorem submissionInv_recheck (h : w.CandidatesInv) (hinv : w.SubmissionInv call)
    {candidate : StoredCandidate} {dispatch : BacktestDispatch}
    (hphase : call.phase = .prepared candidate dispatch) :
    w.SubmissionInv
      { call with phase := call.afterRecheck w.repository candidate dispatch } := by
  have hfresh := hinv.fresh (by rw [hphase]; rfl)
  have hprepared := hinv.own candidate dispatch (by rw [hphase]; rfl)
  unfold SubmissionCall.afterRecheck
  split
  next existing hexisting =>
    apply submissionInv_settled hinv rfl rfl
    intro candidateId haccepted key hkey
    rw [(findIteration_of_manual hprepared hkey w.repository).1] at hexisting
    cases hexisting
  next =>
    split
    next existing hexisting =>
      apply submissionInv_settled hinv rfl rfl
      intro candidateId haccepted key hkey
      obtain ⟨given, hgiven, hfound⟩ := Option.bind_eq_some_iff.mp hexisting
      have hid : existing.candidateId = candidateId := Option.some.inj haccepted
      rw [SubmissionRequest.ownerKey_of_key (Option.filter_eq_some_iff.mp hgiven).1,
        ← hprepared.ownerUserId] at hkey
      rw [← hid, found_under h .inMemory hfound]
      exact hkey
    next =>
      apply submissionInv_prepared hinv hfresh _ rfl
      intro candidate' dispatch' hrecord
      cases hrecord
      exact hprepared

/-- The in-memory write of the candidate, while the key is free. -/
theorem candidatesInv_createCandidate (h : w.CandidatesInv)
    (hcall : w.submissions.get? call.candidateId = some call) {candidate : StoredCandidate}
    {dispatch : BacktestDispatch} (hphase : call.phase = .rechecked candidate dispatch)
    (hfree : ∀ key ∈ call.request.submissionIdempotencyKey, key ≠ "" ∧
      InMemory.findCandidateBySubmission w.repository call.request.ownerUserId key = none) :
    (w.submissionMoved call
      (InMemory.createCandidate w.repository candidate call.request.submissionIdempotencyKey)
      (.created candidate dispatch)).CandidatesInv := by
  have hinv := h.calls _ call hcall
  have hprepared := hinv.own candidate dispatch (by rw [hphase]; rfl)
  apply candidatesInv_stored h hcall candidate (hinv.fresh (by rw [hphase]; rfl))
    hprepared.candidateId rfl
  · intro key hkey
    obtain ⟨given, hgiven, rfl⟩ := Option.map_eq_some_iff.mp hkey
    obtain ⟨hempty, hnone⟩ := hfree given hgiven
    refine ⟨free_of_not_found h .inMemory hnone, ?_⟩
    have hfilter : (some given).filter (!·.isEmpty) = some given := by
      simp [Option.filter_some, hempty]
    rw [candidateIndex, repository, submissionMoved]
    simp only [InMemory.createCandidate, hgiven, hfilter, Option.map_some, Table.putOption_some]
    rw [Table.holding_put, hprepared.candidateId, SubmissionKey.ofOwner, hprepared.ownerUserId]
    rfl
  · intro hkey
    have hnone : call.request.submissionIdempotencyKey = none := Option.map_eq_none_iff.mp hkey
    rw [candidateIndex, repository, submissionMoved]
    simp only [InMemory.createCandidate, hnone, Option.filter_none, Option.map_none,
      Table.putOption_none]
    rfl
  · intro jobId dispatch hget
    exact Or.inr hget
  · exact hinv.keyless
  · rfl
  · intro candidate' dispatch' hrecord
    cases hrecord
    exact hprepared
  · intro candidateId haccepted
    cases haccepted

/-- The database's whole transaction finds the iteration, throws, or inserts under a free key. -/
theorem createQueuedSubmission_postgres (state : RepositoryState) (candidate : StoredCandidate)
    (dispatch : BacktestDispatch) (key : Option String) :
    (∃ existing, Postgres.findIteration state candidate = some existing ∧
      Postgres.createQueuedSubmission state candidate dispatch key = (state, .ok existing)) ∨
    Postgres.createQueuedSubmission state candidate dispatch key =
      (state, .error Postgres.uniqueViolation) ∨
    (∀ given ∈ key, state.candidateIdempotency.get? (candidate.ownerUserId, given) = none) ∧
      Postgres.createQueuedSubmission state candidate dispatch key =
        ({ state with
            candidates := state.candidates.put (Postgres.insertedRow candidate)
            candidateIdempotency := state.candidateIdempotency.putOption (key.map fun given =>
              ⟨candidate.ownerUserId, given, candidate.candidateId⟩)
            dispatches := state.dispatches.put dispatch }, .ok candidate) := by
  unfold Postgres.createQueuedSubmission
  cases Postgres.findIteration state candidate with
  | some existing => exact Or.inl ⟨existing, rfl, rfl⟩
  | none =>
    dsimp only
    split_ifs with htaken
    · exact Or.inr (Or.inl rfl)
    · rw [Bool.or_eq_true, Bool.or_eq_true, not_or, not_or, Bool.not_eq_true, Bool.not_eq_true]
        at htaken
      refine Or.inr (Or.inr ⟨fun given hgiven => ?_, ?_⟩)
      · have hfree := htaken.1.2
        rw [Option.mem_def.mp hgiven, Option.any_some] at hfree
        exact Option.isNone_iff_eq_none.mp (Option.isSome_eq_false_iff.mp hfree)
      · cases key <;> rfl

theorem candidatesInv_insert (h : w.CandidatesInv)
    (hcall : w.submissions.get? call.candidateId = some call) {candidate : StoredCandidate}
    {dispatch : BacktestDispatch} (hphase : call.phase = .prepared candidate dispatch) :
    (w.submissionMoved call (call.afterInsert w.repository candidate dispatch).1
      (call.afterInsert w.repository candidate dispatch).2).CandidatesInv := by
  have hinv := h.calls _ call hcall
  have hprepared := hinv.own candidate dispatch (by rw [hphase]; rfl)
  unfold SubmissionCall.afterInsert
  rcases createQueuedSubmission_postgres w.repository candidate dispatch
    call.request.submissionIdempotencyKey with ⟨existing, hfound, heq⟩ | heq | ⟨hfree, heq⟩
  · rw [heq]
    apply candidatesInv_quiet h hcall rfl (.refl _)
    apply submissionInv_settled hinv rfl rfl
    intro candidateId haccepted key hkey
    rw [(findIteration_of_manual hprepared hkey w.repository).2] at hfound
    cases hfound
  · rw [heq]
    exact candidatesInv_quiet h hcall rfl (.refl _) (submissionInv_failed hinv _)
  · rw [heq]
    apply candidatesInv_stored h hcall (Postgres.insertedRow candidate)
      (hinv.fresh (by rw [hphase]; rfl)) hprepared.candidateId rfl
    · intro key hkey
      obtain ⟨given, hgiven, rfl⟩ := Option.map_eq_some_iff.mp hkey
      constructor
      · rw [candidateIndex, Table.holding, ← hprepared.ownerUserId, hfree given hgiven]
        rfl
      · rw [candidateIndex, repository, submissionMoved]
        simp only [hgiven, Option.map_some, Table.putOption_some]
        rw [Table.holding_put, hprepared.candidateId, SubmissionKey.ofOwner,
          hprepared.ownerUserId]
        rfl
    · intro hkey
      have hnone : call.request.submissionIdempotencyKey = none := Option.map_eq_none_iff.mp hkey
      rw [candidateIndex, repository, submissionMoved]
      simp only [hnone, Option.map_none, Table.putOption_none]
      rfl
    · intro jobId dispatch' hget
      change (w.repository.dispatches.put dispatch).get? jobId = some dispatch' at hget
      rw [Table.get?_put] at hget
      split at hget
      next hjob =>
        cases hget
        rw [hjob, hprepared.jobId]
        exact Or.inl ⟨rfl, hprepared.queued⟩
      next => exact Or.inr hget
    · exact hinv.keyless
    · rfl
    · intro candidate' dispatch' hrecord
      cases hrecord
    · intro candidateId haccepted
      rw [← hprepared.candidateId]
      exact (Option.some.inj haccepted).symm

/-- The call's own candidate, once it is stored, is submitted under the call's key. -/
theorem submittedUnder_own (hcall : w.submissions.get? call.candidateId = some call)
    (hstored : (w.world.stored call.candidateId).isSome) {key : String × String}
    (hkey : call.request.ownerKey = some key) : w.submittedUnder call.candidateId = some key :=
  submittedUnder_eq_some.mpr ⟨hstored, (keyOf_of_get? hcall).trans hkey⟩

/-- The in-memory write of the dispatch, whose candidate is stored by now. -/
theorem candidatesInv_queue (h : w.CandidatesInv)
    (hcall : w.submissions.get? call.candidateId = some call) {candidate : StoredCandidate}
    {dispatch : BacktestDispatch} (hphase : call.phase = .created candidate dispatch) :
    (w.submissionMoved call (w.repository.putDispatch dispatch)
      (.saved candidate dispatch)).CandidatesInv := by
  have hinv := h.calls _ call hcall
  have hprepared := hinv.own candidate dispatch (by rw [hphase]; rfl)
  have hstored := hinv.created candidate dispatch hphase
  have hmoved : (w.submissionMoved call w.repository (.saved candidate dispatch)).CandidatesInv := by
    apply candidatesInv_quiet h hcall rfl (.refl _)
    apply submissionInv_settled hinv rfl rfl
    intro candidateId haccepted key hkey
    have hid : candidate.candidateId = candidateId := Option.some.inj haccepted
    rw [← hid, hprepared.candidateId]
    exact submittedUnder_own hcall hstored hkey
  refine ⟨hmoved.sourced, hmoved.made, hmoved.indexed, fun jobId dispatch' hget => ?_,
    fun candidateId other hother => ?_⟩
  · change (w.repository.dispatches.put dispatch).get? jobId = some dispatch' at hget
    rw [Table.get?_put] at hget
    split at hget
    next hjob =>
      cases hget
      rw [hjob, hprepared.jobId]
      exact ⟨hprepared.queued, hstored⟩
    next => exact h.queued jobId dispatch' hget
  · obtain ⟨hkeyless, hfresh, hown, hcreated, haccepted⟩ := hmoved.calls candidateId other hother
    exact ⟨hkeyless, hfresh, hown, hcreated, haccepted⟩

theorem dispatchOne_keepsQueue (deps : Dependencies) (storage : Storage)
    (repository : RepositoryState) (dispatch : BacktestDispatch) (now : Int) :
    KeepsQueue repository (dispatchOne deps storage repository dispatch now) := by
  unfold dispatchOne
  split
  · exact .refl repository
  · split
    · exact storage.markDispatchDispatched_keepsQueue repository _ _
    · exact storage.markDispatchFailed_keepsQueue repository _ _ _

theorem candidatesInv_dispatchOne (h : w.CandidatesInv) (deps : Dependencies) (storage : Storage)
    (now : Int) (hcall : w.submissions.get? call.candidateId = some call) {saved : StoredCandidate}
    {dispatch : Option BacktestDispatch} (hphase : call.phase = .dispatching saved dispatch) :
    (w.submissionMoved call
      (dispatch.elim w.repository fun dispatch => dispatchOne deps storage w.repository dispatch now)
      (.returned (.ok saved.accepted))).CandidatesInv := by
  have hinv := h.calls _ call hcall
  have hnew : w.SubmissionInv { call with phase := .returned (.ok saved.accepted) } := by
    apply submissionInv_settled hinv rfl rfl
    intro candidateId haccepted
    apply hinv.accepted
    rw [hphase]
    exact haccepted
  cases dispatch with
  | none => exact candidatesInv_quiet h hcall rfl (.refl _) hnew
  | some dispatch =>
    exact candidatesInv_quiet h hcall (dispatchOne_candidates deps storage w.repository dispatch now)
      (dispatchOne_keepsQueue deps storage w.repository dispatch now) hnew

/-- What a move of a submitting call preserves. -/
theorem candidatesInv_move (h : w.CandidatesInv) {policyHash : NormalizedPolicy → String}
    {storage : Storage} {move : SubmissionMove} {repository : RepositoryState}
    {phase : SubmissionPhase} (hcall : w.submissions.get? call.candidateId = some call)
    (hmove : call.advance policyHash storage w.scopes.scopes w.repository move =
      some (repository, phase))
    (hc : w.KeepsKeys storage (.submission call.candidateId move)) :
    (w.submissionMoved call repository phase).CandidatesInv := by
  have hinv := h.calls _ call hcall
  cases move with
  | lookUp =>
    simp only [SubmissionCall.advance] at hmove
    split at hmove
    next hphase =>
      cases hmove
      exact candidatesInv_quiet h hcall rfl (.refl _) (submissionInv_lookUp h storage hinv hphase)
    next => cases hmove
  | prepare deps =>
    simp only [SubmissionCall.advance] at hmove
    split at hmove
    next hphase =>
      cases hmove
      exact candidatesInv_quiet h hcall rfl (.refl _) (submissionInv_prepare hinv hphase)
    next => cases hmove
  | recheck =>
    simp only [SubmissionCall.advance] at hmove
    split at hmove
    next candidate dispatch hphase =>
      cases hmove
      exact candidatesInv_quiet h hcall rfl (.refl _) (submissionInv_recheck h hinv hphase)
    next => cases hmove
  | create =>
    simp only [SubmissionCall.advance] at hmove
    split at hmove
    next candidate dispatch hphase =>
      cases hmove
      exact candidatesInv_createCandidate h hcall hphase (hc rfl call hcall)
    next candidate dispatch hphase =>
      have hafter := Option.some.inj hmove
      rw [← show _ = repository from congrArg Prod.fst hafter,
        ← show _ = phase from congrArg Prod.snd hafter]
      exact candidatesInv_insert h hcall hphase
    next => cases hmove
  | queue =>
    simp only [SubmissionCall.advance] at hmove
    split at hmove
    next candidate dispatch hphase =>
      cases hmove
      exact candidatesInv_queue h hcall hphase
    next => cases hmove
  | readDispatch =>
    simp only [SubmissionCall.advance] at hmove
    split at hmove
    next saved dispatch hphase =>
      cases hmove
      apply candidatesInv_quiet h hcall rfl (.refl _)
      apply submissionInv_settled hinv rfl rfl
      intro candidateId haccepted
      apply hinv.accepted
      rw [hphase]
      exact haccepted
    next => cases hmove
  | dispatchOne deps now =>
    simp only [SubmissionCall.advance] at hmove
    split at hmove
    next saved dispatch hphase =>
      cases hmove
      exact candidatesInv_dispatchOne h deps storage now hcall hphase
    next => cases hmove
  | fail error =>
    simp only [SubmissionCall.advance] at hmove
    split at hmove
    next => cases hmove
    next =>
      cases hmove
      exact candidatesInv_quiet h hcall rfl (.refl _) (submissionInv_failed hinv error)

/-- An operation stores no candidate that was not there. -/
theorem isSome_stored_next (h : w.CandidatesInv) (storage : Storage) {step : Step}
    (hstep : step.isSubmit = false) (henabled : w.world.enabled step) (candidateId : String) :
    ((storage.next w.world step).stored candidateId).isSome =
      (w.world.stored candidateId).isSome := by
  rcases Storage.candidates_next storage h.sourced henabled hstep with
    hsame | ⟨row, stored, -, -, -, hstored, -, hput⟩
  · rw [World.stored, hsame]
    rfl
  · rw [World.stored, hput, Table.get?_put]
    split
    next hid =>
      rw [hid, hstored]
      rfl
    next => rfl

theorem candidatesInv_operation (h : w.CandidatesInv) (storage : Storage) {step : Step}
    (hstep : step.isSubmit = false) (henabled : w.world.enabled step) :
    CandidatesInv { w with world := storage.next w.world step } := by
  have hsome := isSome_stored_next h storage hstep henabled
  have hqueue : KeepsQueue w.repository (storage.next w.world step).repository :=
    storage.apply_keepsQueue w.repository hstep
  have hunder : submittedUnder { w with world := storage.next w.world step } =
      w.submittedUnder := by
    funext candidateId
    apply Option.ext
    intro key
    rw [submittedUnder_eq_some, submittedUnder_eq_some, hsome]
    rfl
  have hindex : candidateIndex { w with world := storage.next w.world step } = w.candidateIndex :=
    congrArg (fun keys : Table SubmissionKey.ofOwner => keys.holding fun row => some row.candidateId)
      hqueue.keys
  constructor
  · exact Storage.sourced_next storage h.sourced henabled
  · intro candidateId hstored
    rw [hsome] at hstored
    exact h.made candidateId hstored
  · rw [hunder, hindex]
    exact h.indexed
  · intro jobId dispatch hget
    obtain ⟨before, hbefore, hcandidate⟩ := hqueue.dispatches jobId dispatch hget
    rw [hsome, hcandidate]
    exact h.queued jobId before hbefore
  · intro candidateId call hcall
    apply (h.calls candidateId call hcall).mono
    · intro hphase
      have hfresh := (h.calls candidateId call hcall).fresh hphase
      have hnone := hsome call.candidateId
      rw [hfresh] at hnone
      exact Option.isNone_iff_eq_none.mp (Option.isSome_eq_false_iff.mp hnone)
    · intro other hstored
      rw [hsome]
      exact hstored
    · rw [hunder]
      exact fun _ _ hkey => hkey

theorem candidatesInv_submit (h : w.CandidatesInv) {request : SubmissionRequest}
    (hnew : (w.submissions.get? request.candidateId).isNone)
    (hkeyless : request.origin = .search → request.submissionIdempotencyKey = none)
    (command : StartBacktestCommand) :
    CandidatesInv { w with submissions := w.submissions.put ⟨request, command, .started⟩ } := by
  have hfresh : w.world.stored request.candidateId = none := by
    apply Option.not_isSome_iff_eq_none.mp
    intro hstored
    have hcall := h.made request.candidateId hstored
    rw [Option.isNone_iff_eq_none.mp hnew] at hcall
    cases hcall
  have hunder : submittedUnder
      { w with submissions := w.submissions.put ⟨request, command, .started⟩ } =
      w.submittedUnder := by
    funext candidateId
    by_cases hid : candidateId = request.candidateId
    · rw [hid, submittedUnder, submittedUnder, hfresh]
      rfl
    · have hget : (w.submissions.put ⟨request, command, .started⟩).get? candidateId =
          w.submissions.get? candidateId := Table.get?_put_of_ne w.submissions hid
      simp only [submittedUnder, keyOf, hget]
  constructor
  · exact h.sourced
  · intro candidateId hstored
    change ((w.submissions.put ⟨request, command, .started⟩).get? candidateId).isSome
    rw [Table.get?_put]
    split
    · rfl
    · exact h.made candidateId hstored
  · rw [hunder]
    exact h.indexed
  · exact h.queued
  · intro candidateId call hcall
    change (w.submissions.put ⟨request, command, .started⟩).get? candidateId = some call at hcall
    rw [Table.get?_put] at hcall
    split at hcall
    · cases hcall
      refine ⟨hkeyless, fun _ => hfresh, fun _ _ hphase => ?_, fun _ _ hphase => ?_,
        fun _ hphase => ?_⟩ <;> cases hphase
    · have hinv := h.calls candidateId call hcall
      refine hinv.mono ?_ (fun _ hstored => hstored) ?_
      · exact hinv.fresh
      · rw [hunder]
        exact fun _ _ hkey => hkey

theorem candidatesInv_start : start.CandidatesInv := by
  refine ⟨sourced_start, fun _ h => ?_, .of_none (fun _ => rfl) (fun _ => rfl), fun _ _ h => ?_,
    fun _ _ h => ?_⟩ <;> cases h

theorem createdUnder_eq_some {scopeId : String} {key : String × String} :
    w.createdUnder scopeId = some key ↔ (w.scopes.scopes.get? scopeId).isSome ∧
      ∃ call, w.creations.get? scopeId = some call ∧ call.request.ownerKey = key := by
  rw [createdUnder, Option.bind_eq_some_iff, Option.isSome_iff_exists]
  constructor
  · rintro ⟨scope, hstored, hkey⟩
    exact ⟨⟨scope, hstored⟩, Option.map_eq_some_iff.mp hkey⟩
  · rintro ⟨⟨scope, hstored⟩, hkey⟩
    exact ⟨scope, hstored, Option.map_eq_some_iff.mpr hkey⟩

theorem scope_found_under (h : w.ScopesInv) {ownerUserId key : String}
    {scope : StoredBenchmarkScope}
    (hfound : w.scopes.findScopeByIdempotency ownerUserId key = some scope) :
    w.scopes.scopes.get? scope.id = some scope ∧
      w.createdUnder scope.id = some (ownerUserId, key) := by
  obtain ⟨row, hrow, hstored⟩ := Option.bind_eq_some_iff.mp hfound
  have hid : scope.id = row.scopeId := Table.key_of_get? hstored
  refine ⟨Table.get?_key hstored, h.indexed.sound _ _ ?_⟩
  rw [scopeIndex, Table.holding_of_get? hrow, hid]

theorem scope_free_of_not_found (h : w.ScopesInv) {ownerUserId key : String}
    (hnone : w.scopes.findScopeByIdempotency ownerUserId key = none) :
    w.scopeIndex (ownerUserId, key) = none := by
  cases hrow : w.scopes.scopeIdempotency.get? (ownerUserId, key) with
  | none =>
    rw [scopeIndex, Table.holding, hrow]
    rfl
  | some row =>
    have hindex : w.scopeIndex (ownerUserId, key) = some row.scopeId := by
      rw [scopeIndex, Table.holding_of_get? hrow]
    have hstored := (createdUnder_eq_some.mp (h.indexed.sound _ _ hindex)).1
    rw [ScopeStore.findScopeByIdempotency, hrow, Option.bind_some] at hnone
    rw [hnone] at hstored
    cases hstored

theorem ScopeInv.mono {w' : CreationWorld} {call : ScopeCall} (h : w.ScopeInv call)
    (hfresh : call.phase.unstored = true → w'.scopes.scopes.get? call.scopeId = none)
    (hstored : ∀ scopeId scope, w.scopes.scopes.get? scopeId = some scope →
      w'.scopes.scopes.get? scopeId = some scope)
    (hunder : ∀ scopeId key, w.createdUnder scopeId = some key →
      w'.createdUnder scopeId = some key) : w'.ScopeInv call where
  fresh := hfresh
  own := h.own
  stored := fun scope hphase =>
    ⟨hstored _ _ (h.stored scope hphase).1, hunder _ _ (h.stored scope hphase).2⟩

theorem createdUnder_creationMoved {call : ScopeCall}
    (hcall : w.creations.get? call.scopeId = some call) (phase : ScopePhase) :
    (w.creationMoved call w.scopes phase).createdUnder = w.createdUnder := by
  funext scopeId
  by_cases hid : scopeId = call.scopeId
  · have hmoved : (w.creationMoved call w.scopes phase).creations.get? scopeId =
        some { call with phase } := Table.get?_put_of_eq w.creations hid
    rw [createdUnder, createdUnder, hmoved, hid, hcall]
    rfl
  · have hmoved : (w.creationMoved call w.scopes phase).creations.get? scopeId =
        w.creations.get? scopeId := Table.get?_put_of_ne w.creations hid
    rw [createdUnder, createdUnder, hmoved]
    rfl

theorem get?_creationMoved {call other : ScopeCall} {scopes : ScopeStore} {phase : ScopePhase}
    {scopeId : String}
    (h : (w.creationMoved call scopes phase).creations.get? scopeId = some other) :
    (scopeId = call.scopeId ∧ other = { call with phase }) ∨
      (scopeId ≠ call.scopeId ∧ w.creations.get? scopeId = some other) := by
  change (w.creations.put { call with phase }).get? scopeId = some other at h
  rw [Table.get?_put] at h
  split at h
  next hid =>
    cases h
    exact Or.inl ⟨hid, rfl⟩
  next hid => exact Or.inr ⟨hid, h⟩

/-- A move that leaves the scopes as they are. -/
theorem scopesInv_quiet (h : w.ScopesInv) {call : ScopeCall} {phase : ScopePhase}
    (hcall : w.creations.get? call.scopeId = some call)
    (hnew : w.ScopeInv { call with phase }) : (w.creationMoved call w.scopes phase).ScopesInv := by
  have hunder := createdUnder_creationMoved hcall phase
  have hsame : ∀ {other : ScopeCall}, w.ScopeInv other →
      (w.creationMoved call w.scopes phase).ScopeInv other := by
    intro other hother
    refine hother.mono hother.fresh (fun _ _ hstored => hstored) ?_
    rw [hunder]
    exact fun _ _ hkey => hkey
  constructor
  · intro scopeId hstored
    change ((w.creations.put { call with phase }).get? scopeId).isSome
    rw [Table.get?_put]
    split
    · rfl
    · exact h.made scopeId hstored
  · rw [hunder]
    exact h.indexed
  · intro scopeId other hget
    rcases get?_creationMoved hget with ⟨-, rfl⟩ | ⟨-, hother⟩
    · exact hsame hnew
    · exact hsame (h.calls scopeId other hother)

/-- A scope is stored under a free key. -/
theorem scopesInv_put (h : w.ScopesInv) {call : ScopeCall} {scope : StoredBenchmarkScope}
    (hcall : w.creations.get? call.scopeId = some call) (hphase : call.phase = .captured scope)
    (hfree : w.scopeIndex call.request.ownerKey = none) :
    (w.creationMoved call (w.scopes.put scope call.request.scopeIdempotencyKey)
      (.created scope)).ScopesInv := by
  have hinv := h.calls _ call hcall
  obtain ⟨hid, howner⟩ := hinv.own scope hphase
  have hfresh : w.scopes.scopes.get? call.scopeId = none := hinv.fresh (by rw [hphase]; rfl)
  let w' := w.creationMoved call (w.scopes.put scope call.request.scopeIdempotencyKey)
    (.created scope)
  have hself : w'.scopes.scopes.get? call.scopeId = some scope :=
    Table.get?_put_of_eq w.scopes.scopes hid.symm
  have hother : ∀ scopeId, scopeId ≠ call.scopeId →
      w'.scopes.scopes.get? scopeId = w.scopes.scopes.get? scopeId :=
    fun scopeId hne => Table.get?_put_of_ne w.scopes.scopes (hid ▸ hne)
  have hcalled : w'.creations.get? call.scopeId = some { call with phase := .created scope } :=
    Table.get?_put_of_eq w.creations rfl
  have hunder : w'.createdUnder =
      Function.update w.createdUnder call.scopeId (some call.request.ownerKey) := by
    funext scopeId
    by_cases hne : scopeId = call.scopeId
    · rw [hne, Function.update_self, createdUnder, hself, hcalled]
      rfl
    · have hmoved : w'.creations.get? scopeId = w.creations.get? scopeId :=
        Table.get?_put_of_ne w.creations hne
      rw [Function.update_of_ne hne, createdUnder, createdUnder, hother scopeId hne, hmoved]
  have hindex : w'.scopeIndex =
      Function.update w.scopeIndex call.request.ownerKey (some call.scopeId) := by
    change Table.holding (w.scopes.scopeIdempotency.put _) _ = _
    rw [Table.holding_put, ScopeKey.ofOwner, howner, hid]
    rfl
  have hnew : w.createdUnder call.scopeId = none := by
    rw [createdUnder, hfresh]
    rfl
  have hdistinct : ∀ scopeId scope, w.scopes.scopes.get? scopeId = some scope →
      scopeId ≠ call.scopeId := by
    rintro scopeId scope hstored rfl
    rw [hfresh] at hstored
    cases hstored
  constructor
  · intro scopeId hstored
    change ((w.creations.put _).get? scopeId).isSome
    rw [Table.get?_put]
    split
    · rfl
    next hne =>
      rw [show (w.creationMoved call _ _).scopes.scopes.get? scopeId = _ from hother scopeId hne]
        at hstored
      exact h.made scopeId hstored
  · rw [show (w.creationMoved call _ _).createdUnder = _ from hunder,
      show (w.creationMoved call _ _).scopeIndex = _ from hindex]
    exact h.indexed.record hfree hnew
  · intro scopeId other hget
    rcases get?_creationMoved hget with ⟨-, rfl⟩ | ⟨hne, hcalled'⟩
    · refine ⟨fun hunstored => ?_, fun stored hown => ?_, ?_⟩
      · cases hunstored
      · cases hown
      rintro stored (hstored | hstored)
      · cases hstored
        rw [hid]
        refine ⟨hself, ?_⟩
        change w'.createdUnder call.scopeId = _
        rw [hunder, Function.update_self]
      · cases hstored
    · have hotherId : other.scopeId = scopeId := Table.key_of_get? hcalled'
      refine (h.calls scopeId other hcalled').mono (fun hunstored => ?_) (fun _ _ hstored => ?_)
        fun otherId key hkey => ?_
      · exact (hother _ (hotherId ▸ hne)).trans ((h.calls scopeId other hcalled').fresh hunstored)
      · exact (hother _ (hdistinct _ _ hstored)).trans hstored
      · have hneId : otherId ≠ call.scopeId := by
          rintro rfl
          rw [hnew] at hkey
          cases hkey
        change w'.createdUnder otherId = some key
        rw [hunder, Function.update_of_ne hneId]
        exact hkey

/-- A phase in which the call has failed, or answers with a scope that is stored. -/
theorem scopeInv_returned {call : ScopeCall} (answer : Except String StoredBenchmarkScope)
    (h : ∀ scope, answer = .ok scope → w.scopes.scopes.get? scope.id = some scope ∧
      w.createdUnder scope.id = some call.request.ownerKey) :
    w.ScopeInv { call with phase := .returned answer } := by
  refine ⟨fun hunstored => ?_, fun scope hown => ?_, ?_⟩
  · cases hunstored
  · cases hown
  rintro scope (hphase | hphase)
  · cases hphase
  · cases hphase
    exact h scope rfl

theorem scopeInv_failed {call : ScopeCall} (error : String) :
    w.ScopeInv { call with phase := .returned (.error error) } := by
  apply scopeInv_returned
  intro scope hscope
  cases hscope

theorem scopeInv_lookUp (h : w.ScopesInv) {call : ScopeCall} (hinv : w.ScopeInv call)
    (hphase : call.phase = .started) :
    w.ScopeInv { call with phase := call.afterLookUp w.scopes } := by
  unfold ScopeCall.afterLookUp
  split
  · exact scopeInv_failed _
  · split
    · exact scopeInv_failed _
    · split
      next existing hexisting =>
        apply scopeInv_returned
        intro scope hscope
        cases hscope
        exact scope_found_under h hexisting
      next =>
        split
        · refine ⟨fun _ => hinv.fresh (by rw [hphase]; rfl), fun scope hown => ?_, ?_⟩
          · cases hown
          · rintro scope (hstored | hstored) <;> cases hstored
        · exact scopeInv_failed _

/-- What a move of a creating call preserves. -/
theorem scopesInv_move (h : w.ScopesInv) {storage : Storage} {call : ScopeCall} {move : ScopeMove}
    {scopes : ScopeStore} {phase : ScopePhase}
    (hcall : w.creations.get? call.scopeId = some call)
    (hmove : call.advance storage w.scopes move = some (scopes, phase))
    (hc : w.KeepsKeys storage (.creation call.scopeId move)) :
    (w.creationMoved call scopes phase).ScopesInv := by
  have hinv := h.calls _ call hcall
  cases move with
  | lookUp =>
    simp only [ScopeCall.advance] at hmove
    split at hmove
    next hphase =>
      cases hmove
      exact scopesInv_quiet h hcall (scopeInv_lookUp h hinv hphase)
    next => cases hmove
  | capture captured sentimentDatasetSnapshot =>
    simp only [ScopeCall.advance] at hmove
    split at hmove
    next hphase =>
      cases hmove
      apply scopesInv_quiet h hcall
      refine ⟨fun _ => hinv.fresh (by rw [hphase]; rfl), fun scope hown => ?_, ?_⟩
      · cases hown
        exact ⟨rfl, rfl⟩
      · rintro scope (hstored | hstored) <;> cases hstored
    next => cases hmove
  | create =>
    simp only [ScopeCall.advance] at hmove
    split at hmove
    next scope hphase =>
      have hafter := Option.some.inj hmove
      obtain ⟨-, howner⟩ := hinv.own scope hphase
      cases storage with
      | inMemory =>
        cases hafter
        exact scopesInv_put h hcall hphase (scope_free_of_not_found h (hc rfl call hcall))
      | postgres =>
        simp only [ScopeCall.afterCreate, Storage.createScope, Postgres.createScope] at hafter
        split_ifs at hafter with htaken
        · cases hafter
          exact scopesInv_quiet h hcall (scopeInv_failed _)
        · cases hafter
          rw [Bool.or_eq_true, not_or, Bool.not_eq_true, Bool.not_eq_true] at htaken
          apply scopesInv_put h hcall hphase
          rw [scopeIndex, Table.holding, ScopeRequest.ownerKey, ← howner,
            Option.isNone_iff_eq_none.mp (Option.isSome_eq_false_iff.mp htaken.2)]
          rfl
    next => cases hmove
  | answer =>
    simp only [ScopeCall.advance] at hmove
    split at hmove
    next scope hphase =>
      cases hmove
      apply scopesInv_quiet h hcall
      apply scopeInv_returned
      intro scope' hscope
      cases hscope
      exact hinv.stored scope (Or.inl hphase)
    next => cases hmove
  | fail error =>
    simp only [ScopeCall.advance] at hmove
    split at hmove
    next => cases hmove
    next =>
      cases hmove
      exact scopesInv_quiet h hcall (scopeInv_failed error)

theorem scopesInv_createBenchmarkScope (h : w.ScopesInv) {request : ScopeRequest}
    (hnew : (w.creations.get? request.scopeId).isNone) (command : CreateLeaderboardScopeCommand) :
    ScopesInv { w with creations := w.creations.put ⟨request, command, .started⟩ } := by
  have hfresh : w.scopes.scopes.get? request.scopeId = none := by
    apply Option.not_isSome_iff_eq_none.mp
    intro hstored
    have hcall := h.made request.scopeId hstored
    rw [Option.isNone_iff_eq_none.mp hnew] at hcall
    cases hcall
  have hunder : createdUnder { w with creations := w.creations.put ⟨request, command, .started⟩ } =
      w.createdUnder := by
    funext scopeId
    by_cases hid : scopeId = request.scopeId
    · rw [hid, createdUnder, createdUnder, hfresh]
      rfl
    · have hget : (w.creations.put ⟨request, command, .started⟩).get? scopeId =
          w.creations.get? scopeId := Table.get?_put_of_ne w.creations hid
      simp only [createdUnder, hget]
  constructor
  · intro scopeId hstored
    change ((w.creations.put ⟨request, command, .started⟩).get? scopeId).isSome
    rw [Table.get?_put]
    split
    · rfl
    · exact h.made scopeId hstored
  · rw [hunder]
    exact h.indexed
  · intro scopeId call hcall
    change (w.creations.put ⟨request, command, .started⟩).get? scopeId = some call at hcall
    rw [Table.get?_put] at hcall
    split at hcall
    · cases hcall
      refine ⟨fun _ => hfresh, fun scope hown => ?_, ?_⟩
      · cases hown
      · rintro scope (hstored | hstored) <;> cases hstored
    · have hinv := h.calls scopeId call hcall
      refine hinv.mono ?_ (fun _ _ hstored => hstored) ?_
      · exact hinv.fresh
      · rw [hunder]
        exact fun _ _ hkey => hkey

theorem scopesInv_start : start.ScopesInv := by
  refine ⟨fun _ h => ?_, .of_none (fun _ => rfl) (fun _ => rfl), fun _ _ h => ?_⟩ <;> cases h

theorem candidatesInv_next {policyHash : NormalizedPolicy → String} {storage : Storage}
    {step : CreationStep} (h : w.CandidatesInv) (henabled : w.enabled policyHash storage step)
    (hc : w.KeepsKeys storage step) : (w.next policyHash storage step).CandidatesInv := by
  cases step with
  | operation step => exact candidatesInv_operation h storage henabled.1 henabled.2
  | submit request command => exact candidatesInv_submit h henabled.1 henabled.2 command
  | submission candidateId move =>
    simp only [next]
    split
    next => exact h
    next call repository phase hadvanced =>
      obtain ⟨call', hcall, hmove⟩ := Option.bind_eq_some_iff.mp hadvanced
      obtain ⟨moved, hmoved, hpair⟩ := Option.map_eq_some_iff.mp hmove
      cases hpair
      have hid : call.candidateId = candidateId := Table.key_of_get? hcall
      subst hid
      exact candidatesInv_move h hcall hmoved hc
  | createBenchmarkScope request command =>
    exact ⟨h.sourced, h.made, h.indexed, h.queued, fun candidateId call hcall =>
      ⟨(h.calls candidateId call hcall).keyless, (h.calls candidateId call hcall).fresh,
        (h.calls candidateId call hcall).own, (h.calls candidateId call hcall).created,
        (h.calls candidateId call hcall).accepted⟩⟩
  | creation scopeId move =>
    simp only [next]
    split
    next => exact h
    next call scopes phase hadvanced =>
      exact ⟨h.sourced, h.made, h.indexed, h.queued, fun candidateId call hcall =>
        ⟨(h.calls candidateId call hcall).keyless, (h.calls candidateId call hcall).fresh,
          (h.calls candidateId call hcall).own, (h.calls candidateId call hcall).created,
          (h.calls candidateId call hcall).accepted⟩⟩

theorem scopesInv_next {policyHash : NormalizedPolicy → String} {storage : Storage}
    {step : CreationStep} (h : w.ScopesInv) (henabled : w.enabled policyHash storage step)
    (hc : w.KeepsKeys storage step) : (w.next policyHash storage step).ScopesInv := by
  cases step with
  | operation step =>
    exact ⟨h.made, h.indexed, fun scopeId call hcall =>
      ⟨(h.calls scopeId call hcall).fresh, (h.calls scopeId call hcall).own,
        (h.calls scopeId call hcall).stored⟩⟩
  | submit request command =>
    exact ⟨h.made, h.indexed, fun scopeId call hcall =>
      ⟨(h.calls scopeId call hcall).fresh, (h.calls scopeId call hcall).own,
        (h.calls scopeId call hcall).stored⟩⟩
  | submission candidateId move =>
    simp only [next]
    split
    next => exact h
    next call repository phase hadvanced =>
      exact ⟨h.made, h.indexed, fun scopeId call hcall =>
        ⟨(h.calls scopeId call hcall).fresh, (h.calls scopeId call hcall).own,
          (h.calls scopeId call hcall).stored⟩⟩
  | createBenchmarkScope request command =>
    exact scopesInv_createBenchmarkScope h henabled command
  | creation scopeId move =>
    simp only [next]
    split
    next => exact h
    next call scopes phase hadvanced =>
      obtain ⟨call', hcall, hmove⟩ := Option.bind_eq_some_iff.mp hadvanced
      obtain ⟨moved, hmoved, hpair⟩ := Option.map_eq_some_iff.mp hmove
      cases hpair
      have hid : call.scopeId = scopeId := Table.key_of_get? hcall
      subst hid
      exact scopesInv_move h hcall hmoved hc

theorem idempotent_of_inv (h : w.CandidatesInv) (hscopes : w.ScopesInv) : w.Idempotent where
  candidate := fun key candidateId candidateId' hid hid' => h.indexed.unique hid hid'
  dispatch := by
    intro key dispatch hmem dispatch' hmem' hkey hkey'
    have hget := Table.get?_of_mem_rows hmem
    have hget' := Table.get?_of_mem_rows hmem'
    obtain ⟨hqueued, hstored⟩ := h.queued _ dispatch hget
    obtain ⟨hqueued', hstored'⟩ := h.queued _ dispatch' hget'
    have hsame : dispatch.jobId = dispatch'.jobId :=
      h.indexed.unique (submittedUnder_eq_some.mpr ⟨hstored, hqueued ▸ hkey⟩)
        (submittedUnder_eq_some.mpr ⟨hstored', hqueued' ▸ hkey'⟩)
    rw [hsame, hget'] at hget
    exact (Option.some.inj hget).symm
  accepted := by
    intro call hmem key accepted hkey hphase
    apply (h.calls _ call (Table.get?_of_mem_rows hmem)).accepted _ _ key hkey
    rw [hphase]
    rfl
  scope := fun key scopeId scopeId' hid hid' => hscopes.indexed.unique hid hid'
  returned := fun call hmem scope hphase =>
    (hscopes.calls _ call (Table.get?_of_mem_rows hmem)).stored scope (Or.inr hphase)

end CreationWorld

/-! Two submissions under one key, on a scope that was created before. -/
namespace Sample

def scopeCommand : CreateLeaderboardScopeCommand where
  name := "BTC"
  datasetSnapshotId := "snapshot"
  sentimentDatasetSnapshot := none
  sentimentCreate := false
  initialCapital := .ofInt 1000
  feeRatePercent := .ofInt 0
  slippageBps := .ofInt 0
  warmupCapacityCandles := none
  scoreFormulaId := "MVP_MANUAL_V1"
  riskPolicy := none
  workerRuntimeVersion := "1.0.0"
  workerRuntimeSha256 := commandSha256
  evaluationRuntimeSha256 := commandSha256

def scopeCreated : List CreationStep :=
  [.createBenchmarkScope ⟨"u", "scope", "s"⟩ scopeCommand, .creation "s" .lookUp,
    .creation "s" (.capture ⟨"snapshot", "BTCUSDT", ⟨"BTC", "USDT", "USDT"⟩, .h1⟩ none),
    .creation "s" .create, .creation "s" .answer]

def keyedRequest (candidateId : String) : SubmissionRequest :=
  ⟨"u", .manual, some "k", candidateId, 0⟩

/-- The second submission comes after the first has returned. -/
def repeated : List CreationStep :=
  scopeCreated ++
    [.submit (keyedRequest "a") command, .submission "a" .lookUp, .submission "a" (.prepare deps),
      .submission "a" .recheck, .submission "a" .create, .submission "a" .queue,
      .submission "a" .readDispatch, .submission "a" (.dispatchOne deps 0),
      .submit (keyedRequest "b") command, .submission "b" .lookUp]

/-- The two submissions take their steps in turn. -/
def inTurn : List CreationStep :=
  scopeCreated ++
    [.submit (keyedRequest "a") command, .submit (keyedRequest "b") command,
      .submission "a" .lookUp, .submission "b" .lookUp,
      .submission "a" (.prepare deps), .submission "b" (.prepare deps),
      .submission "a" .recheck, .submission "b" .recheck,
      .submission "a" .create, .submission "b" .create]

end Sample

namespace CreationWorld

theorem inv_after {policyHash : NormalizedPolicy → String} {storage : Storage}
    {steps : List CreationStep}
    (hlegal : (system policyHash storage).Legal (KeepsKeys · storage) start steps) :
    (after policyHash storage steps).CandidatesInv ∧ (after policyHash storage steps).ScopesInv :=
  hlegal.invariant (fun w => w.CandidatesInv ∧ w.ScopesInv)
    (fun _ _ h henabled hc =>
      ⟨candidatesInv_next h.1 henabled hc, scopesInv_next h.2 henabled hc⟩)
    ⟨candidatesInv_start, scopesInv_start⟩

/-- The database's unique keys ask nothing of a step. -/
theorem keepsKeys_postgres (w : CreationWorld) (step : CreationStep) : w.KeepsKeys .postgres step := by
  cases step with
  | submission candidateId move =>
    cases move with
    | create => exact fun h => by cases h
    | _ => trivial
  | creation scopeId move =>
    cases move with
    | create => exact fun h => by cases h
    | _ => trivial
  | _ => trivial

theorem idempotent_postgres (policyHash : NormalizedPolicy → String) (steps : List CreationStep)
    (hlegal : (system policyHash .postgres).Legal (fun _ _ => True) start steps) :
    (after policyHash .postgres steps).Idempotent := by
  have hboth := inv_after (hlegal.mono fun w step _ => keepsKeys_postgres w step)
  exact idempotent_of_inv hboth.1 hboth.2

/-- In every run, as long as the in-memory repository writes under keys that are still free. -/
theorem creation_idempotent (policyHash : NormalizedPolicy → String) (storage : Storage)
    (steps : List CreationStep)
    (hlegal : (system policyHash storage).Legal (KeepsKeys · storage) start steps) :
    (after policyHash storage steps).Idempotent := by
  obtain ⟨hcandidates, hscopes⟩ := inv_after hlegal
  exact idempotent_of_inv hcandidates hscopes

theorem creation_idempotent_repeated :
    (after (fun _ => Sample.commandSha256) .inMemory Sample.repeated).Idempotent :=
  creation_idempotent _ .inMemory Sample.repeated (by decide)

/-- Both submissions find the key free, and both store a candidate. -/
theorem creation_duplicated :
    (system (fun _ => Sample.commandSha256) .inMemory).Legal (fun _ _ => True) start
        Sample.inTurn ∧
      ¬ (after (fun _ => Sample.commandSha256) .inMemory Sample.inTurn).Idempotent := by
  refine ⟨by decide, fun hclaim => ?_⟩
  have hsame := hclaim.candidate ("u", "k") "a" "b" (by decide) (by decide)
  exact absurd hsame (by decide)

end CreationWorld

end Cryptox.Backtesting
