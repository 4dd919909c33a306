import Cryptox.Library.Outbox
import Cryptox.Library.PortAnswer
import Cryptox.Backtesting.Service.QueueRecovery

/-!
# Dispatching submissions to the queue

`createQueuedSubmission` stores a candidate and its dispatch together. `dispatchOne` takes a dispatch
that was read before, hands its job to the queue and marks the row. Calls run beside each other and
beside everybody's operations, wait at each await, and may stop there; an answer may be lost with or
without its effect. The queue keeps a job under its id until it is removed.
-/
namespace Cryptox.Backtesting

open Cryptox.Library

def invalidQueueJob : String := "INVALID_BACKTEST_QUEUE_JOB"

/-- What the queue's adapter checks of a backtest job. -/
def BacktestQueueJob.valid (job : BacktestQueueJob) : Bool :=
  !job.jobId.isEmpty && job.candidateId == job.jobId && 1 ≤ job.maxAttempts

/-- What `dispatchRecord` makes of a submission: a pending dispatch whose job the queue takes. -/
def Step.Dispatchable : Step → Prop
  | .submit _ dispatch _ => dispatch.state = .pending ∧ dispatch.job.valid = true
  | _ => True

instance : ∀ step : Step, Decidable step.Dispatchable
  | .submit _ dispatch _ => inferInstanceAs (Decidable (dispatch.state = .pending ∧ _))
  | .tick _ | .read _ | .claimWorkerAttempt _ | .persistWorkerSuccess _ | .failWorkerAttempt _
  | .recoverAbandonedAttempt .. | .repairTerminalQueueFailure .. | .claimCompletion ..
  | .finalizeCompletion .. | .finalizeTerminalFailure .. | .failCompletion .. | .cancel ..
  | .markDispatchCancelled .. => inferInstanceAs (Decidable True)

/-- Where a call of `dispatchOne` stands. -/
inductive DispatchPhase where
  | holding (dispatch : BacktestDispatch)
  | accepted (dispatch : BacktestDispatch)
  | refused (dispatch : BacktestDispatch) (error : String)
  | returned (answer : Except String Bool)
  | stopped

structure DispatchCall where
  callId : Nat
  phase : DispatchPhase

abbrev JobTable := Table BacktestQueueJob.jobId

/-- A job whose id the queue keeps already is not added again. -/
def JobTable.add (queue : JobTable) (job : BacktestQueueJob) : JobTable :=
  if (queue.get? job.jobId).isSome then queue else queue.put job

/-- The repository, the calls, the jobs that the queue keeps, and all it has taken, the latest
first. -/
structure DispatchWorld where
  world : World
  calls : Table DispatchCall.callId
  queue : JobTable
  taken : List BacktestQueueJob

inductive DispatchStep where
  | operation (step : Step)
  | read (callId : Nat) (jobId : String)
  | enqueue (callId : Nat) (answer : PortAnswer)
  | mark (callId : Nat) (now : Int) (answer : PortAnswer)
  | markFailed (callId : Nat) (now : Int) (answer : PortAnswer)
  | remove (jobId : String)
  | stop (callId : Nat)

namespace DispatchWorld

def start : DispatchWorld := ⟨.start, Table.empty, Table.empty, []⟩

def repository (w : DispatchWorld) : RepositoryState := w.world.repository

def dispatch? (w : DispatchWorld) (jobId : String) : Option BacktestDispatch :=
  w.repository.dispatches.get? jobId

def phase (w : DispatchWorld) (callId : Nat) : Option DispatchPhase :=
  (w.calls.get? callId).map DispatchCall.phase

def setPhase (w : DispatchWorld) (callId : Nat) (phase : DispatchPhase) : DispatchWorld :=
  { w with calls := w.calls.put ⟨callId, phase⟩ }

def setRepository (w : DispatchWorld) (repository : RepositoryState) : DispatchWorld :=
  { w with world := { w.world with repository } }

def take (w : DispatchWorld) (job : BacktestQueueJob) : DispatchWorld :=
  { w with queue := JobTable.add w.queue job, taken := job :: w.taken }

section

variable (storage : Storage)

/-- Ids of calls are new; a call goes on where it stands. -/
def enabled (w : DispatchWorld) : DispatchStep → Prop
  | .operation step => w.world.enabled step ∧ step.Dispatchable
  | .read callId _ => w.phase callId = none
  | .enqueue callId _ => ∃ dispatch, w.phase callId = some (.holding dispatch)
  | .mark callId .. => ∃ dispatch, w.phase callId = some (.accepted dispatch)
  | .markFailed callId .. => ∃ dispatch error, w.phase callId = some (.refused dispatch error)
  | .remove _ => True
  | .stop callId => (w.phase callId).isSome

/-- Right after a submission the row read is the dispatch submitted. -/
def readStep (w : DispatchWorld) (callId : Nat) (jobId : String) : DispatchWorld :=
  match w.dispatch? jobId with
  | none => w
  | some dispatch =>
    w.setPhase callId (if dispatch.state = .pending then .holding dispatch else .returned (.ok false))

def enqueueStep (w : DispatchWorld) (callId : Nat) (dispatch : BacktestDispatch)
    (answer : PortAnswer) : DispatchWorld :=
  if dispatch.job.valid = false then w.setPhase callId (.refused dispatch invalidQueueJob)
  else
    let reached := if answer.lands then w.take dispatch.job else w
    reached.setPhase callId
      (match answer.error? with
        | none => .accepted dispatch
        | some error => .refused dispatch error)

def markStep (w : DispatchWorld) (callId : Nat) (dispatch : BacktestDispatch) (now : Int)
    (answer : PortAnswer) : DispatchWorld :=
  let written :=
    if answer.lands then
      w.setRepository (storage.markDispatchDispatched w.repository dispatch.jobId now)
    else w
  written.setPhase callId
    (match answer.error? with
      | none => .returned (.ok true)
      | some error => .refused dispatch error)

def markFailedStep (w : DispatchWorld) (callId : Nat) (dispatch : BacktestDispatch)
    (error : String) (now : Int) (answer : PortAnswer) : DispatchWorld :=
  let written :=
    if answer.lands then
      w.setRepository (storage.markDispatchFailed w.repository dispatch.jobId error now)
    else w
  written.setPhase callId
    (.returned (match answer.error? with
      | none => .ok false
      | some error => .error error))

def next (w : DispatchWorld) : DispatchStep → DispatchWorld
  | .operation step => { w with world := storage.next w.world step }
  | .read callId jobId => w.readStep callId jobId
  | .enqueue callId answer =>
    match w.phase callId with
    | some (.holding dispatch) => w.enqueueStep callId dispatch answer
    | _ => w
  | .mark callId now answer =>
    match w.phase callId with
    | some (.accepted dispatch) => w.markStep storage callId dispatch now answer
    | _ => w
  | .markFailed callId now answer =>
    match w.phase callId with
    | some (.refused dispatch error) => w.markFailedStep storage callId dispatch error now answer
    | _ => w
  | .remove jobId => { w with queue := w.queue.filter fun job => job.jobId != jobId }
  | .stop callId => w.setPhase callId .stopped

def system : GuardedSystem DispatchWorld DispatchStep := ⟨enabled, next storage⟩

end

end DispatchWorld

/-! The outbox that the dispatches are. -/

def DispatchState.standing : DispatchState → Standing
  | .pending => .waiting
  | .dispatched => .sent
  | .cancelled => .withdrawn

def BacktestDispatch.letter (dispatch : BacktestDispatch) : Letter BacktestQueueJob :=
  ⟨dispatch.job, dispatch.state.standing⟩

def DispatchPhase.load : DispatchPhase → Option (String × BacktestQueueJob)
  | holding dispatch => some (dispatch.jobId, dispatch.job)
  | accepted _ | refused .. | returned _ | stopped => none

def DispatchWorld.box (w : DispatchWorld) : Outbox String Nat BacktestQueueJob where
  letters jobId := (w.dispatch? jobId).map BacktestDispatch.letter
  carried callId := (w.phase callId).bind DispatchPhase.load
  kept := w.queue.get?
  arrived := w.taken.map fun job => (job.jobId, job)

end Cryptox.Backtesting
