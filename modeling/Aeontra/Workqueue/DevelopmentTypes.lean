import Aeontra.Workqueue.TaskRules

/-!
Records of the development tables: runner effects, requests and objectives.

The objectives of package `development` are a parameter: the store reads only what
`ObjectiveRecords` lists, and everything below holds for every reading of it.
-/

namespace Aeontra.Workqueue

open Library

def maxDevelopmentObjectives : Nat := 1024
def maxDevelopmentRunnerEffects : Nat := 1024
def maxDevelopmentRequests : Nat := 1024
def maxDevelopmentRequestRecordBytes : Nat := 4096
def maxDevelopmentRequestRevision : Nat := 2 ^ 20
def developmentRequestIdempotencyTTL : Duration := 30 * 24 * hour
def developmentObjectiveRetentionTTL : Duration := 30 * 24 * hour
def runnerEffectRetention : Duration := 30 * 24 * hour

def runnerEffectPattern : Pattern := hexPattern "" 64 64
def runnerDigestPattern : Pattern := hexPattern "sha256:" 64 64
def runnerJobPattern : Pattern := hexPattern "wj_" 32 32

inductive RunnerState where
  | dispatchIntent | pending | cancelIntent | cancelled | failed | succeeded
  deriving DecidableEq

def RunnerState.text : RunnerState → String
  | .dispatchIntent => "dispatch_intent"
  | .pending => "pending"
  | .cancelIntent => "cancel_intent"
  | .cancelled => "cancelled"
  | .failed => "failed"
  | .succeeded => "succeeded"

def RunnerState.settled : RunnerState → Bool
  | .succeeded | .failed | .cancelled => true
  | _ => false

/-- The classes for which `ContinuationForFailure` knows an action. -/
def failureClasses : List String :=
  ["code_failure", "capability_missing", "capability_drift", "dependency_missing",
    "service_unavailable", "kernel_semantics_missing", "ci_contract_missing",
    "filesystem_mapping_missing", "platform_mismatch", "external_transient", "policy_denied",
    "reconciliation_required"]

structure DevelopmentRunnerEffect where
  effectID : String
  revision : Nat
  bindingDigest : String
  templateDigest : String
  workflowID : Int
  commandProfile : String
  jobID : String
  fence : Nat
  state : RunnerState
  runID : Int
  startedAt : Time
  completedAt : Time
  receiptDigest : String
  failure : String
  deriving DecidableEq

def DevelopmentRunnerEffect.valid (r : DevelopmentRunnerEffect) : Bool :=
  ["probe-only", "make-validate-all", "go-test-all"].contains r.commandProfile &&
    runnerEffectPattern.matchString r.effectID && runnerDigestPattern.matchString r.bindingDigest &&
    runnerDigestPattern.matchString r.templateDigest && 1 ≤ r.workflowID &&
    runnerJobPattern.matchString r.jobID && r.fence ≠ 0 && r.revision ≠ 0 && r.revision ≤ 2 ^ 20 &&
    r.startedAt ≠ zeroTime && 0 ≤ r.runID &&
    !(r.completedAt ≠ zeroTime && (r.completedAt < r.startedAt || !r.state.settled)) &&
    match r.state with
    | .dispatchIntent | .pending | .cancelIntent | .cancelled => r.receiptDigest = "" && r.failure = ""
    | .failed => r.receiptDigest = "" && failureClasses.contains r.failure
    | .succeeded =>
      0 < r.runID && runnerDigestPattern.matchString r.receiptDigest && r.failure = ""

def Encode.runnerEffect (r : DevelopmentRunnerEffect) : String :=
  open JsonText in
  object ([texts "effect_id" r.effectID, field "revision" (nat r.revision),
    texts "binding_digest" r.bindingDigest, texts "template_digest" r.templateDigest,
    field "workflow_id" (int r.workflowID), texts "command_profile" r.commandProfile,
    texts "job_id" r.jobID, field "fence" (nat r.fence), texts "state" r.state.text] ++
    (if r.runID = 0 then [] else [field "run_id" (int r.runID)]) ++
    [field "started_at" (time r.startedAt), field "completed_at" (time r.completedAt)] ++
    unlessEmpty "receipt_digest" r.receiptDigest ++ unlessEmpty "failure_class" r.failure)

inductive DevelopmentRequestState where
  | preparing | active | cancelling | completed | failed | cancelled | awaitingReasoning
  deriving DecidableEq

def DevelopmentRequestState.text : DevelopmentRequestState → String
  | .preparing => "preparing"
  | .active => "active"
  | .cancelling => "cancelling"
  | .completed => "completed"
  | .failed => "failed"
  | .cancelled => "cancelled"
  | .awaitingReasoning => "awaiting_reasoning"

inductive DevelopmentRequestReason where
  | none | inspectionPending | capabilityMissing | sourceChanged | codeFailure | newRequirement
  | operationFailed | operationUnknown | reconciliationRequired | semanticAcceptancePending
  | cancellationRequested
  deriving DecidableEq

def DevelopmentRequestReason.text : DevelopmentRequestReason → String
  | .none => ""
  | .inspectionPending => "inspection_pending"
  | .capabilityMissing => "capability_missing"
  | .sourceChanged => "source_changed"
  | .codeFailure => "code_failure"
  | .newRequirement => "new_requirement"
  | .operationFailed => "operation_failed"
  | .operationUnknown => "operation_unknown"
  | .reconciliationRequired => "reconciliation_required"
  | .semanticAcceptancePending => "semantic_acceptance_pending"
  | .cancellationRequested => "cancellation_requested"

structure DevelopmentRequest where
  id : String
  revision : Nat
  keyDigest : String
  projectAlias : String
  target : String
  deviceID : String
  bodyRef : String
  bodyDigest : String
  inspectionOperationID : String
  objectiveID : String
  activeOperationID : String
  processID : String
  state : DevelopmentRequestState
  reason : DevelopmentRequestReason
  deriving DecidableEq

def developmentRequestIDPattern : Pattern := hexPattern "dr_" 32 32
def developmentRequestDevice : Pattern := hexPattern "ed_" 32 32
def developmentRequestGoal : Pattern := hexPattern "mb_" 32 32
def developmentRequestOp : Pattern := hexPattern "eo_" 32 32
def developmentRequestProcess : Pattern := hexPattern "pr_" 32 32
def developmentRequestDigest : Pattern := hexPattern "sha256:" 64 64

def identityPattern : Pattern := [[⟨isAlnum, 1, 1⟩, ⟨keyTail, 0, 127⟩]]

def validObjectiveID (value : String) : Bool := identityPattern.matchString (Text.trimSpace value)

def validDevelopmentRequestObjectiveID (value : String) : Bool :=
  value = Text.trimSpace value && validObjectiveID value

def validDevelopmentRequestReasonForState (state : DevelopmentRequestState)
    (reason : DevelopmentRequestReason) : Bool :=
  match state with
  | .awaitingReasoning => [.semanticAcceptancePending, .codeFailure, .newRequirement,
      .sourceChanged].contains reason
  | .cancelling => reason = .cancellationRequested || reason = .reconciliationRequired
  | .cancelled => reason = .none || reason = .cancellationRequested
  | .completed => reason = .none
  | .failed => reason ≠ .none && reason ≠ .semanticAcceptancePending &&
      reason ≠ .cancellationRequested
  | .preparing | .active => reason ≠ .semanticAcceptancePending && reason ≠ .cancellationRequested

def developmentRequestTerminal : DevelopmentRequestState → Bool
  | .completed | .failed | .cancelled => true
  | _ => false

def DevelopmentRequest.valid (request : DevelopmentRequest) : Bool :=
  developmentRequestIDPattern.matchString request.id && request.revision ≠ 0 &&
    request.revision ≤ maxDevelopmentRequestRevision &&
    developmentRequestDigest.matchString request.keyDigest &&
    taskProjectPattern.matchString request.projectAlias &&
    taskTargetPattern.matchString request.target &&
    developmentRequestDevice.matchString request.deviceID &&
    developmentRequestGoal.matchString request.bodyRef &&
    developmentRequestDigest.matchString request.bodyDigest &&
    (request.inspectionOperationID = "" ||
      developmentRequestOp.matchString request.inspectionOperationID) &&
    (request.objectiveID = "" || validDevelopmentRequestObjectiveID request.objectiveID) &&
    (request.activeOperationID = "" || developmentRequestOp.matchString request.activeOperationID) &&
    (request.processID = "" || developmentRequestProcess.matchString request.processID) &&
    !(request.state = .cancelling && request.reason = .reconciliationRequired && request.processID = "") &&
    validDevelopmentRequestReasonForState request.state request.reason

def Encode.request (r : DevelopmentRequest) : String :=
  open JsonText in
  object ([texts "request_id" r.id, field "revision" (nat r.revision), texts "key_digest" r.keyDigest,
    texts "alias" r.projectAlias, texts "target" r.target, texts "device_id" r.deviceID,
    texts "body_ref" r.bodyRef, texts "body_digest" r.bodyDigest] ++
    unlessEmpty "inspection_operation_id" r.inspectionOperationID ++
    unlessEmpty "objective_id" r.objectiveID ++
    unlessEmpty "active_operation_id" r.activeOperationID ++ unlessEmpty "process_id" r.processID ++
    [texts "state" r.state.text] ++ unlessEmpty "reason" r.reason.text)

def marshalDevelopmentRequest (request : DevelopmentRequest) : Except String (String × String) := do
  reject (!request.valid) "workqueue: development request is invalid"
  let body := Encode.request request
  reject (byteLength body > maxDevelopmentRequestRecordBytes)
    "workqueue: development request record is unavailable"
  pure (body, payloadDigest ("aeontra-development-request-v1\x00" ++ body))

def sameDevelopmentRequestBinding (left right : DevelopmentRequest) : Bool :=
  left.keyDigest = right.keyDigest && left.projectAlias = right.projectAlias &&
    left.target = right.target && left.deviceID = right.deviceID && left.bodyRef = right.bodyRef &&
    left.bodyDigest = right.bodyDigest

def validInitialDevelopmentRequest (request : DevelopmentRequest) : Bool :=
  request.valid && request.revision = 1 && request.state = .preparing && request.reason = .none &&
    request.inspectionOperationID = "" && request.objectiveID = "" &&
    request.activeOperationID = "" && request.processID = ""

def validDevelopmentRequestStateTransition (before after : DevelopmentRequestState) : Bool :=
  before = after ||
    match before with
    | .preparing => [.active, .cancelling, .failed, .cancelled].contains after
    | .active => [.cancelling, .completed, .failed, .cancelled, .awaitingReasoning].contains after
    | .cancelling => [.completed, .failed, .cancelled].contains after
    | .awaitingReasoning => [.cancelling, .completed, .failed, .cancelled].contains after
    | _ => false

def setOnceDevelopmentRequestID (before after : String) (valid : String → Bool) : Bool :=
  before = "" || (before = after && valid after)

def validDevelopmentRequestTransition (before after : DevelopmentRequest) : Bool :=
  before.valid && after.valid && !developmentRequestTerminal before.state && before.id = after.id &&
    sameDevelopmentRequestBinding before after && after.revision = before.revision + 1 &&
    validDevelopmentRequestStateTransition before.state after.state &&
    setOnceDevelopmentRequestID before.inspectionOperationID after.inspectionOperationID
      developmentRequestOp.matchString &&
    setOnceDevelopmentRequestID before.objectiveID after.objectiveID
      validDevelopmentRequestObjectiveID &&
    setOnceDevelopmentRequestID before.processID after.processID
      developmentRequestProcess.matchString &&
    !(before.state = .cancelling && before.reason = .reconciliationRequired &&
      after.state = .cancelling && after.reason ≠ .reconciliationRequired)

inductive ObjectiveState where
  | planned | running | acceptancePending | accepted | reconciliationRequired | failed | cancelled
  deriving DecidableEq

def ObjectiveState.text : ObjectiveState → String
  | .planned => "planned"
  | .running => "running"
  | .acceptancePending => "acceptance_pending"
  | .accepted => "accepted"
  | .reconciliationRequired => "reconciliation_required"
  | .failed => "failed"
  | .cancelled => "cancelled"

def ObjectiveState.settled : ObjectiveState → Bool
  | .accepted | .failed | .cancelled => true
  | _ => false

/-- What the store reads of an objective of package `development`. -/
class ObjectiveRecords (O : Type) where
  objectiveID : O → String
  revision : O → Nat
  state : O → ObjectiveState
  /-- The provision and job identities of all steps, in order. -/
  provisions : O → List (String × String)
  valid : O → Bool
  /-- The canonical body and its digest. -/
  marshalRecord : O → Option (String × String)
  parseRecord : String → Option O
  recordDigest : String → String
  validateTransition : O → O → Bool

end Aeontra.Workqueue
