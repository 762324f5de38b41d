import Aeontra.Development.Attempt

/-!
Provisioning: the plan of an environment to build, and the attempt that follows the queue
job which builds it.
-/

namespace Aeontra.Development

open Library Workqueue

def provisionPlanVersion : Int := 1
def maxProvisioningAttemptsPerStep : Nat := 16

def provisionTail (c : Char) : Bool := isLowerAlnum c || c == '.' || c == '_' || c == '-'

def provisionIdentityPattern : Pattern := [[⟨fun c => 'a' ≤ c && c ≤ 'z', 1, 1⟩, ⟨provisionTail, 0, 63⟩]]

def provisionJobIDPattern : Pattern := hexPattern "wj_" 32 32
def digestPattern : Pattern := hexPattern "sha256:" 64 64

structure ProvisionPlan where
  version : Int
  provider : String
  pool : String
  profile : String
  outputClass : ExecutionClass
  baseEnvironmentDigest : String
  capabilities : List CapabilityID
  digest : String
  deriving DecidableEq

def provisionPlanContent (plan : ProvisionPlan) : String :=
  "aeontra-development-provision-plan-v1\x00" ++
    zeroTerminated ([plan.provider, plan.pool, plan.profile, plan.outputClass.text,
      plan.baseEnvironmentDigest] ++ plan.capabilities)

def provisionPlanDigest (plan : ProvisionPlan) : String := payloadDigest (provisionPlanContent plan)

def ProvisionPlan.valid (plan : ProvisionPlan) : Bool :=
  plan.version = provisionPlanVersion && provisionIdentityPattern.matchString plan.provider &&
    provisionIdentityPattern.matchString plan.pool &&
    provisionIdentityPattern.matchString plan.profile &&
    (plan.baseEnvironmentDigest = "" || digestPattern.matchString plan.baseEnvironmentDigest) &&
    digestPattern.matchString plan.digest &&
    match canonicalCapabilityIDs plan.capabilities with
    | .ok canonical => !canonical.isEmpty && canonical.length ≤ maxEnvironmentCatalogEntries &&
        canonical = plan.capabilities && plan.digest = provisionPlanDigest plan
    | .error _ => false

def ProvisionPlan.covers (plan : ProvisionPlan) (requirements : List CapabilityID) : Bool :=
  plan.valid && requirements.all (searchFinds plan.capabilities)

inductive ProvisioningState where
  | planned | queued | succeeded | failed | cancelled
  deriving DecidableEq

def ProvisioningState.text : ProvisioningState → String
  | .planned => "planned"
  | .queued => "queued"
  | .succeeded => "succeeded"
  | .failed => "failed"
  | .cancelled => "cancelled"

def ProvisioningState.active : ProvisioningState → Bool
  | .planned | .queued => true
  | _ => false

structure ProvisioningAttempt where
  provisionID : String
  sourceDigest : String
  plan : ProvisionPlan
  state : ProvisioningState
  jobID : String
  jobFence : Nat
  receiptDigest : String
  failure : Option FailureClass
  deriving DecidableEq

def newProvisioningAttempt (provisionID sourceDigest : String) (plan : ProvisionPlan) :
    Except String ProvisioningAttempt := do
  let provisionID := Text.trimSpace provisionID
  reject (!identityPattern.matchString provisionID || !digestPattern.matchString sourceDigest ||
    !plan.valid) "development provisioning attempt is invalid"
  pure ⟨provisionID, sourceDigest, plan, .planned, "", 0, "", none⟩

namespace ProvisioningAttempt

def valid (attempt : ProvisioningAttempt) : Bool :=
  identityPattern.matchString attempt.provisionID &&
    digestPattern.matchString attempt.sourceDigest && attempt.plan.valid &&
    match attempt.state with
    | .planned => attempt.jobID = "" && attempt.jobFence = 0 && attempt.receiptDigest = "" &&
        attempt.failure = none
    | .queued => provisionJobIDPattern.matchString attempt.jobID && attempt.receiptDigest = "" &&
        attempt.failure = none
    | .succeeded => provisionJobIDPattern.matchString attempt.jobID && 0 < attempt.jobFence &&
        digestPattern.matchString attempt.receiptDigest && attempt.failure = none
    | .failed => provisionJobIDPattern.matchString attempt.jobID && attempt.receiptDigest = "" &&
        (continuationForFailure attempt.failure).isSome
    | .cancelled => attempt.receiptDigest = "" && attempt.failure = none &&
        ((attempt.jobID = "" && attempt.jobFence = 0) ||
          provisionJobIDPattern.matchString attempt.jobID)

def bindJob (attempt : ProvisioningAttempt) (jobID : String) : Except String ProvisioningAttempt := do
  let jobID := Text.trimSpace jobID
  reject (!attempt.valid || attempt.state ≠ .planned || !provisionJobIDPattern.matchString jobID)
    "development provisioning job binding is invalid"
  pure { attempt with state := .queued, jobID := jobID }

def succeed (attempt : ProvisioningAttempt) (receiptDigest : String) : Except String ProvisioningAttempt := do
  let receiptDigest := Text.lowerText (Text.trimSpace receiptDigest)
  reject (!attempt.valid || attempt.state ≠ .queued || attempt.jobFence = 0 ||
    !digestPattern.matchString receiptDigest) "development provisioning success is invalid"
  pure { attempt with state := .succeeded, receiptDigest := receiptDigest }

def fail (attempt : ProvisioningAttempt) (failure : FailureClass) : Except String ProvisioningAttempt := do
  reject (!attempt.valid || attempt.state ≠ .queued) "development provisioning failure is invalid"
  pure { attempt with state := .failed, failure := some failure }

def cancel (attempt : ProvisioningAttempt) : Except String ProvisioningAttempt := do
  reject (!attempt.valid || (attempt.state ≠ .planned && attempt.state ≠ .queued))
    "development provisioning cancellation is invalid"
  pure { attempt with state := .cancelled, receiptDigest := "", failure := none }

def bindFence (attempt : ProvisioningAttempt) (fence : Nat) : Except String ProvisioningAttempt := do
  reject (!attempt.valid || attempt.state ≠ .queued || fence = 0 || fence < attempt.jobFence)
    "development provisioning fence binding is invalid"
  pure { attempt with jobFence := fence }

end ProvisioningAttempt

def sameProvisionAttempt (left right : ProvisioningAttempt) : Bool :=
  left.provisionID = right.provisionID && left.sourceDigest = right.sourceDigest &&
    left.plan.digest = right.plan.digest && left.state = right.state && left.jobID = right.jobID &&
    left.jobFence = right.jobFence && left.receiptDigest = right.receiptDigest &&
    left.failure = right.failure

def validProvisionRevision (before after : ProvisioningAttempt) : Bool :=
  before.valid && after.valid && before.provisionID = after.provisionID &&
    before.sourceDigest = after.sourceDigest && before.plan.digest = after.plan.digest &&
    (sameProvisionAttempt before after ||
      match before.state with
      | .planned => (after.state = .queued && after.jobFence = 0) ||
          (after.state = .cancelled && after.jobID = "" && after.jobFence = 0)
      | .queued => before.jobID = after.jobID && before.jobFence ≤ after.jobFence &&
          if after.state = .queued then before.jobFence < after.jobFence
          else before.jobFence = after.jobFence &&
            (after.state = .succeeded || after.state = .failed || after.state = .cancelled)
      | _ => false)

end Aeontra.Development
