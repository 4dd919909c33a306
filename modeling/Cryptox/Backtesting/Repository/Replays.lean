import Cryptox.Backtesting.Repository.State

/-!
# Stored replay verifications

The rows of the replay jobs, without the outcome of the comparison. `listReplayVerificationRecovery`
names the ones that wait, or whose worker has let its lease expire.
-/
namespace Cryptox.Backtesting

open Cryptox.Library (Table)

inductive ReplayVerificationStatus where
  | queued | running | matched | mismatched | nonReplayable
deriving DecidableEq, Repr

structure StoredReplayVerification where
  replayJobId : String
  experimentId : String
  sourceAttemptId : AttemptId
  ownerUserId : String
  status : ReplayVerificationStatus
  mismatchSampleLimit : Nat
  requestedAt : Int
  activeClaimToken : Option String
  leaseExpiresAt : Option Int
deriving DecidableEq, Repr

abbrev ReplayTable := Table StoredReplayVerification.replayJobId

/-- Nobody works on the verification at `now`. -/
def StoredReplayVerification.waiting (replay : StoredReplayVerification) (now : Int) : Bool :=
  replay.status == .queued
    || (replay.status == .running && replay.leaseExpiresAt.all fun expiresAt => expiresAt ≤ now)

end Cryptox.Backtesting
