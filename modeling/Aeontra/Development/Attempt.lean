import Aeontra.Development.Capability

/-!
Execution attempts: one immutable source and environment identity for one step, the states
it passes through, and which attempt may follow a failed one.
-/

namespace Aeontra.Development

open Library Workqueue

inductive FailureClass where
  | codeFailure | capabilityMissing | capabilityDrift | dependencyMissing | serviceUnavailable
  | kernelSemantics | ciContract | filesystemMapping | platformMismatch | externalTransient
  | policyDenied | reconciliationNeeded
  deriving DecidableEq

def FailureClass.text : FailureClass → String
  | .codeFailure => "code_failure"
  | .capabilityMissing => "capability_missing"
  | .capabilityDrift => "capability_drift"
  | .dependencyMissing => "dependency_missing"
  | .serviceUnavailable => "service_unavailable"
  | .kernelSemantics => "kernel_semantics_missing"
  | .ciContract => "ci_contract_missing"
  | .filesystemMapping => "filesystem_mapping_missing"
  | .platformMismatch => "platform_mismatch"
  | .externalTransient => "external_transient"
  | .policyDenied => "policy_denied"
  | .reconciliationNeeded => "reconciliation_required"

inductive ContinuationAction where
  | fixCode | provisionOrMigrate | retrySameEnvironment | stopPolicy | reconcile
  deriving DecidableEq

def FailureClass.action : FailureClass → ContinuationAction
  | .codeFailure => .fixCode
  | .capabilityMissing | .capabilityDrift | .dependencyMissing | .serviceUnavailable
  | .kernelSemantics | .ciContract | .filesystemMapping | .platformMismatch => .provisionOrMigrate
  | .externalTransient => .retrySameEnvironment
  | .policyDenied => .stopPolicy
  | .reconciliationNeeded => .reconcile

def continuationForFailure (failure : Option FailureClass) : Option ContinuationAction :=
  failure.map FailureClass.action

inductive AttemptState where
  | planned | running | succeeded | failed | cancelled
  deriving DecidableEq

def AttemptState.text : AttemptState → String
  | .planned => "planned"
  | .running => "running"
  | .succeeded => "succeeded"
  | .failed => "failed"
  | .cancelled => "cancelled"

structure ExecutionAttempt where
  attemptID : String
  stepID : String
  parentAttemptID : String
  sourceDigest : String
  environmentID : String
  environmentDigest : String
  environmentGeneration : Nat
  executionClass : ExecutionClass
  tier : AuthorityTier
  state : AttemptState
  failure : Option FailureClass
  deriving DecidableEq

def newExecutionAttempt (attemptID stepID sourceDigest : String)
    (environment : EnvironmentAttestation) : Except String ExecutionAttempt := do
  let attemptID := Text.trimSpace attemptID
  let stepID := Text.trimSpace stepID
  let sourceDigest := Text.lowerText (Text.trimSpace sourceDigest)
  reject (!identityPattern.matchString attemptID || !identityPattern.matchString stepID ||
    !sourceDigestPattern.matchString sourceDigest || !environment.valid)
    "development execution attempt is invalid"
  pure
    { attemptID := attemptID
      stepID := stepID
      parentAttemptID := ""
      sourceDigest := sourceDigest
      environmentID := environment.environmentID
      environmentDigest := environment.digest
      environmentGeneration := environment.generation
      executionClass := environment.executionClass
      tier := environment.executionClass.tier
      state := .planned
      failure := none }

def ExecutionAttempt.validIdentity (attempt : ExecutionAttempt) : Bool :=
  identityPattern.matchString attempt.attemptID && identityPattern.matchString attempt.stepID &&
    identityPattern.matchString attempt.environmentID &&
    sourceDigestPattern.matchString attempt.sourceDigest && attempt.environmentGeneration ≠ 0 &&
    sourceDigestPattern.matchString attempt.environmentDigest &&
    attempt.executionClass.tier = attempt.tier

def attemptTransitionAllowed : AttemptState → AttemptState → Bool
  | .planned, next => next = .running || next = .cancelled
  | .running, next => next = .succeeded || next = .failed || next = .cancelled
  | _, _ => false

/-- A transition to the state the attempt already has leaves it alone. -/
def ExecutionAttempt.transition (attempt : ExecutionAttempt) (next : AttemptState) :
    Except String ExecutionAttempt := do
  reject (!attempt.validIdentity) "development execution attempt is invalid"
  if next = attempt.state then pure attempt
  else
    reject (!attemptTransitionAllowed attempt.state next)
      "development execution attempt transition is invalid"
    pure { attempt with
      state := next, failure := if next = .failed then attempt.failure else none }

def ExecutionAttempt.fail (attempt : ExecutionAttempt) (failure : FailureClass) :
    Except String ExecutionAttempt := do
  reject (attempt.state ≠ .running) "development execution attempt failure is invalid"
  pure { attempt with state := .failed, failure := some failure }

def preflightFailureAllowed (failure : Option FailureClass) : Bool :=
  match continuationForFailure failure with
  | some .provisionOrMigrate | some .stopPolicy | some .reconcile => true
  | _ => false

def ExecutionAttempt.rejectPreflight (attempt : ExecutionAttempt) (failure : FailureClass) :
    Except String ExecutionAttempt := do
  reject (attempt.state ≠ .planned || !preflightFailureAllowed (some failure))
    "development execution attempt preflight rejection is invalid"
  pure { attempt with state := .failed, failure := some failure }

def continues (action : ContinuationAction) (previousSource previousEnvironment source
    environment : String) : Bool :=
  match action with
  | .fixCode => source ≠ previousSource && environment = previousEnvironment
  | .provisionOrMigrate => environment ≠ previousEnvironment
  | .retrySameEnvironment => source = previousSource && environment = previousEnvironment
  | .stopPolicy | .reconcile => false

def continueExecutionAttempt (newAttemptID sourceDigest : String) (previous : ExecutionAttempt)
    (environment : EnvironmentAttestation) : Except String ExecutionAttempt := do
  let refused := "development execution attempt cannot continue"
  reject (previous.state ≠ .failed || !previous.validIdentity || !environment.valid) refused
  let action ← required refused (continuationForFailure previous.failure)
  let sourceDigest := Text.lowerText (Text.trimSpace sourceDigest)
  reject (!sourceDigestPattern.matchString sourceDigest) refused
  reject (!continues action previous.sourceDigest previous.environmentDigest sourceDigest
    environment.digest) refused
  let next ← newExecutionAttempt newAttemptID previous.stepID sourceDigest environment
  pure { next with parentAttemptID := previous.attemptID }

def validAttemptContinuation (previous next : ExecutionAttempt) : Bool :=
  previous.state = .failed && next.parentAttemptID = previous.attemptID &&
    (continuationForFailure previous.failure).any fun action =>
      continues action previous.sourceDigest previous.environmentDigest next.sourceDigest
        next.environmentDigest

end Aeontra.Development
