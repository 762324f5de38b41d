import Aeontra.Development.Transition
import Aeontra.Library.JsonUnique

/-!
The durable record of an objective: its canonical JSON body and what is read back from one.

How `encoding/json` decodes a body is left open, beyond that it reads back what it wrote.
-/

namespace Aeontra.Development

open Library Workqueue

structure ScopeRecord where
  project : String
  target : String
  anchor : Option WorkspaceAnchor
  deriving DecidableEq

structure PolicyRecord where
  maxTier : AuthorityTier
  allowedClasses : List ExecutionClass
  deriving DecidableEq

structure AttemptRecord where
  attemptID : String
  parentAttemptID : String
  sourceDigest : String
  environmentID : String
  environmentDigest : String
  environmentGeneration : Nat
  executionClass : ExecutionClass
  tier : AuthorityTier
  state : AttemptState
  failure : Option FailureClass
  deriving DecidableEq

structure StepRecord where
  stepID : String
  state : StepState
  requirements : List String
  attempts : List AttemptRecord
  provisioning : List ProvisioningAttempt
  acceptanceContract : Option CommandAcceptanceContract
  acceptanceReceipt : Option CommandAcceptanceReceipt
  deriving DecidableEq

structure ObjectiveRecord where
  version : Int
  objectiveID : String
  revision : Nat
  state : ObjectiveState
  scope : Option ScopeRecord
  policy : PolicyRecord
  steps : List StepRecord
  deriving DecidableEq

section

open JsonText

def texts (items : List String) : List String := items.map quote

def failureText (failure : Option FailureClass) : String := failure.elim "" FailureClass.text

def anchorSlots (anchor : WorkspaceAnchor) : List Slot :=
  [textSlot "device_id" anchor.deviceID, textSlot "workspace_id" anchor.workspaceID,
    natSlot "generation" anchor.generation, textSlot "owner" anchor.owner,
    textSlot "repository" anchor.repository]

def scopeSlots (scope : ScopeRecord) : List Slot :=
  [textSlot "project" scope.project, textSlot "target" scope.target,
    ("anchor", scope.anchor.map fun anchor => record (anchorSlots anchor))]

def policySlots (policy : PolicyRecord) : List Slot :=
  [natSlot "max_tier" policy.maxTier,
    arraySlot "allowed_classes" (texts (policy.allowedClasses.map ExecutionClass.text))]

def attemptSlots (attempt : AttemptRecord) : List Slot :=
  [textSlot "attempt_id" attempt.attemptID, optionalText "parent_attempt_id" attempt.parentAttemptID,
    textSlot "source_digest" attempt.sourceDigest, textSlot "environment_id" attempt.environmentID,
    textSlot "environment_digest" attempt.environmentDigest,
    natSlot "environment_generation" attempt.environmentGeneration,
    textSlot "execution_class" attempt.executionClass.text, natSlot "authority_tier" attempt.tier,
    textSlot "state" attempt.state.text, optionalText "failure_class" (failureText attempt.failure)]

def planSlots (plan : ProvisionPlan) : List Slot :=
  [intSlot "version" plan.version, textSlot "provider" plan.provider, textSlot "pool" plan.pool,
    textSlot "profile" plan.profile, textSlot "output_class" plan.outputClass.text,
    optionalText "base_environment_digest" plan.baseEnvironmentDigest,
    arraySlot "capabilities" (texts plan.capabilities), textSlot "digest" plan.digest]

def provisionSlots (provision : ProvisioningAttempt) : List Slot :=
  [textSlot "provision_id" provision.provisionID, textSlot "source_digest" provision.sourceDigest,
    ("plan", some (record (planSlots provision.plan))), textSlot "state" provision.state.text,
    optionalText "job_id" provision.jobID, optionalNat "job_fence" provision.jobFence,
    optionalText "receipt_digest" provision.receiptDigest,
    optionalText "failure_class" (failureText provision.failure)]

def contractSlots (contract : CommandAcceptanceContract) : List Slot :=
  [textSlot "command_digest" contract.commandDigest, textSlot "source_digest" contract.sourceDigest,
    textSlot "private_body_ref" contract.privateBodyRef,
    textSlot "private_body_digest" contract.privateBodyDigest,
    arraySlot "required_capabilities" (texts contract.requiredCapabilities),
    optionalArray "artifact_refs" (texts contract.artifactRefs)]

def receiptSlots (receipt : CommandAcceptanceReceipt) : List Slot :=
  [textSlot "operation_id" receipt.operationID,
    optionalText "evidence_provider" receipt.evidenceProvider,
    optionalText "runner_effect_id" receipt.runnerEffectID,
    optionalInt "runner_run_id" receipt.runnerRunID,
    optionalText "runner_receipt_digest" receipt.runnerReceiptDigest,
    textSlot "objective_id" receipt.objectiveID, textSlot "step_id" receipt.stepID,
    textSlot "attempt_id" receipt.attemptID, textSlot "contract_digest" receipt.contractDigest,
    textSlot "command_digest" receipt.commandDigest, textSlot "source_digest" receipt.sourceDigest,
    textSlot "environment_digest" receipt.environmentDigest,
    textSlot "private_body_ref" receipt.privateBodyRef,
    textSlot "private_body_digest" receipt.privateBodyDigest, intSlot "exit_code" receipt.exitCode,
    optionalArray "artifact_refs" (texts receipt.artifactRefs)]

def stepSlots (step : StepRecord) : List Slot :=
  [textSlot "step_id" step.stepID, textSlot "state" step.state.text,
    arraySlot "requirements" (texts step.requirements),
    arraySlot "attempts" (step.attempts.map fun attempt => record (attemptSlots attempt)),
    optionalArray "provisioning" (step.provisioning.map fun provision => record (provisionSlots provision)),
    ("acceptance_contract", step.acceptanceContract.map fun contract => record (contractSlots contract)),
    ("acceptance_receipt", step.acceptanceReceipt.map fun receipt => record (receiptSlots receipt))]

def objectiveSlots (objective : ObjectiveRecord) : List Slot :=
  [intSlot "version" objective.version, textSlot "objective_id" objective.objectiveID,
    natSlot "revision" objective.revision, textSlot "state" objective.state.text,
    ("scope", objective.scope.map fun scope => record (scopeSlots scope)),
    ("policy", some (record (policySlots objective.policy))),
    arraySlot "steps" (objective.steps.map fun step => record (stepSlots step))]

def encodeRecord (objective : ObjectiveRecord) : String := record (objectiveSlots objective)

end

def ObjectiveScope.record (scope : ObjectiveScope) : Option ScopeRecord :=
  if scope.bound then
    some ⟨scope.project, scope.target, if scope.anchor.valid then some scope.anchor else none⟩
  else none

def ExecutionAttempt.record (attempt : ExecutionAttempt) : AttemptRecord :=
  { attemptID := attempt.attemptID
    parentAttemptID := attempt.parentAttemptID
    sourceDigest := attempt.sourceDigest
    environmentID := attempt.environmentID
    environmentDigest := attempt.environmentDigest
    environmentGeneration := attempt.environmentGeneration
    executionClass := attempt.executionClass
    tier := attempt.tier
    state := attempt.state
    failure := attempt.failure }

def ObjectiveStep.record (step : ObjectiveStep) : StepRecord :=
  { stepID := step.stepID
    state := step.state
    requirements := step.requirements
    attempts := step.attempts.map ExecutionAttempt.record
    provisioning := step.provisioning
    acceptanceContract := step.acceptanceContract
    acceptanceReceipt := step.acceptanceReceipt }

def Objective.record (o : Objective) : ObjectiveRecord :=
  { version := o.version
    objectiveID := o.objectiveID
    revision := o.revision
    state := o.state
    scope := o.scope.record
    policy := ⟨o.policy.maxTier, o.policy.allowed⟩
    steps := o.steps.map ObjectiveStep.record }

def objectiveRecordDigestDomain : String := "aeontra-development-objective-record-v1\x00"

def objectiveRecordDigest (body : String) : String := payloadDigest (objectiveRecordDigestDomain ++ body)

/-- The digest of a body within the bound, and no digest of another. -/
def recordDigest (body : String) : String :=
  if byteLength body = 0 || byteLength body > maxObjectiveRecordBytes then ""
  else objectiveRecordDigest body

def Objective.marshalRecord (o : Objective) : Except String (String × String) := do
  validateObjectiveSnapshot o
  let body := encodeRecord o.record
  reject (byteLength body = 0 || byteLength body > maxObjectiveRecordBytes)
    "development objective record is unavailable"
  pure (body, objectiveRecordDigest body)

def ScopeRecord.sized (scope : ScopeRecord) : Bool := scope.anchor.all fun anchor => anchor.generation < 2 ^ 64

def inInt64 (n : Int) : Bool := -2 ^ 63 ≤ n && n < 2 ^ 63

def StepRecord.sized (step : StepRecord) : Bool :=
  (step.attempts.all fun attempt => attempt.environmentGeneration < 2 ^ 64 && attempt.tier < 2 ^ 8) &&
    (step.provisioning.all fun provision =>
      provision.jobFence < 2 ^ 64 && inInt64 provision.plan.version) &&
    step.acceptanceReceipt.all fun receipt => inInt64 receipt.runnerRunID && inInt64 receipt.exitCode

def ObjectiveRecord.sized (objective : ObjectiveRecord) : Bool :=
  inInt64 objective.version && objective.revision < 2 ^ 64 && objective.scope.all ScopeRecord.sized &&
    objective.policy.maxTier < 2 ^ 8 && objective.steps.all StepRecord.sized

/-- `encoding/json` with unknown fields and trailing values refused.  Texts outside an
enumeration are refused here rather than by the checks that follow. -/
class RecordDecoder where
  decode : String → Option ObjectiveRecord
  faithful : ∀ objective : ObjectiveRecord, objective.sized = true →
    decode (encodeRecord objective) = some objective

def recordInvalid : String := "development objective record is invalid"

def parseScope : Option ScopeRecord → Except String ObjectiveScope
  | none => .ok .empty
  | some record => do
    let scope ← orFail recordInvalid (newObjectiveScope record.project record.target)
    reject (scope.project ≠ record.project || scope.target ≠ record.target) recordInvalid
    match record.anchor with
    | none => pure scope
    | some anchor => do
      reject (!anchor.valid) "development workspace anchor is invalid"
      pure { scope with anchor := anchor }

def parseRequirements (stored : List String) : Except String (List Requirement) := do
  let requirements ← orFail recordInvalid (requirements stored)
  reject (stored ≠ requirements) recordInvalid
  pure requirements

def parseContract : Option CommandAcceptanceContract → Except String (Option CommandAcceptanceContract)
  | none => .ok none
  | some record => do
    let requirements ← parseRequirements record.requiredCapabilities
    pure (some { record with requiredCapabilities := requirements })

def AttemptRecord.attempt (record : AttemptRecord) (stepID : String) : ExecutionAttempt :=
  { attemptID := record.attemptID
    stepID := stepID
    parentAttemptID := record.parentAttemptID
    sourceDigest := record.sourceDigest
    environmentID := record.environmentID
    environmentDigest := record.environmentDigest
    environmentGeneration := record.environmentGeneration
    executionClass := record.executionClass
    tier := record.tier
    state := record.state
    failure := record.failure }

def parseStep (record : StepRecord) : Except String ObjectiveStep := do
  let requirements ← parseRequirements record.requirements
  let contract ← parseContract record.acceptanceContract
  pure
    { stepID := record.stepID
      requirements := requirements
      acceptanceContract := contract
      acceptanceReceipt := record.acceptanceReceipt
      attempts := record.attempts.map fun attempt => attempt.attempt record.stepID
      provisioning := record.provisioning
      state := record.state }

def parseObjectiveRecord [RecordDecoder] (body : String) : Except String Objective := do
  reject (byteLength body = 0 || byteLength body > maxObjectiveRecordBytes) recordInvalid
  let record ← required recordInvalid (RecordDecoder.decode body)
  let policy ← orFail recordInvalid
    (newResolutionPolicy record.policy.maxTier record.policy.allowedClasses)
  reject (record.policy.allowedClasses ≠ policy.allowed) recordInvalid
  let scope ← parseScope record.scope
  let steps ← record.steps.mapM parseStep
  let objective : Objective :=
    ⟨record.version, record.objectiveID, record.revision, record.state, scope, policy, steps⟩
  orFail recordInvalid (validateObjectiveSnapshot objective)
  pure objective

instance [RecordDecoder] : ObjectiveRecords Objective where
  objectiveID o := o.objectiveID
  revision o := o.revision
  state o := o.state
  provisions o := o.steps.flatMap fun step =>
    step.provisioning.map fun provision => (provision.provisionID, provision.jobID)
  valid o := o.valid
  marshalRecord o := o.marshalRecord.toOption
  parseRecord body := (parseObjectiveRecord body).toOption
  recordDigest := recordDigest
  validateTransition previous next := accepted (validateTransition previous next)

end Aeontra.Development
