import Aeontra.Development.Acceptance
import Aeontra.Development.Provision
import Aeontra.Development.Resolver

/-!
Objectives and the check of a durable snapshot.

Slices are lists: an objective holds no distinction between a nil and an empty one.  The
revision counts modulo `2 ^ 64`.
-/

namespace Aeontra.Development

open Library Workqueue

def objectiveVersion : Int := 1
def maxObjectiveSteps : Nat := 64
def maxAttemptsPerStep : Nat := 32
def maxObjectiveRecordBytes : Nat := 256 * 2 ^ 10

structure WorkspaceAnchor where
  deviceID : String
  workspaceID : String
  generation : Nat
  owner : String
  repository : String
  deriving DecidableEq

def WorkspaceAnchor.empty : WorkspaceAnchor := ⟨"", "", 0, "", ""⟩

def anchorDevicePattern : Pattern := hexPattern "ed_" 32 32
def anchorWorkspacePattern : Pattern := hexPattern "ws_" 32 32

def ownerTail (c : Char) : Bool := isAlnum c || c == '-'

def anchorOwnerPattern : Pattern := [[⟨isAlnum, 1, 1⟩, ⟨ownerTail, 0, 37⟩, ⟨isAlnum, 1, 1⟩], [⟨isAlnum, 1, 1⟩]]

def repositoryTail (c : Char) : Bool := isAlnum c || c == '.' || c == '_' || c == '-'

def anchorRepositoryPattern : Pattern := [[⟨isAlnum, 1, 1⟩, ⟨repositoryTail, 0, 99⟩]]

def WorkspaceAnchor.valid (anchor : WorkspaceAnchor) : Bool :=
  anchorDevicePattern.matchString anchor.deviceID &&
    anchorWorkspacePattern.matchString anchor.workspaceID && 0 < anchor.generation &&
    anchor.generation ≤ 2 ^ 63 - 1 && anchorOwnerPattern.matchString anchor.owner &&
    anchorRepositoryPattern.matchString anchor.repository

def projectScopePattern : Pattern := aliasPattern 61
def targetScopePattern : Pattern := aliasPattern 30

structure ObjectiveScope where
  project : String
  target : String
  anchor : WorkspaceAnchor
  deriving DecidableEq

def ObjectiveScope.empty : ObjectiveScope := ⟨"", "", .empty⟩

def ObjectiveScope.bound (scope : ObjectiveScope) : Bool :=
  projectScopePattern.matchString scope.project && targetScopePattern.matchString scope.target &&
    (scope.anchor = .empty || scope.anchor.valid)

def ObjectiveScope.validOrEmpty (scope : ObjectiveScope) : Bool := scope = .empty || scope.bound

def newObjectiveScope (project target : String) : Except String ObjectiveScope := do
  let scope : ObjectiveScope :=
    ⟨Text.lowerText (Text.trimSpace project), Text.lowerText (Text.trimSpace target), .empty⟩
  reject (!scope.bound) "development objective scope is invalid"
  pure scope

inductive StepState where
  | planned | running | succeeded | failed | cancelled
  deriving DecidableEq

def StepState.text : StepState → String
  | .planned => "planned"
  | .running => "running"
  | .succeeded => "succeeded"
  | .failed => "failed"
  | .cancelled => "cancelled"

structure ObjectiveStep where
  stepID : String
  requirements : List Requirement
  acceptanceContract : Option CommandAcceptanceContract
  acceptanceReceipt : Option CommandAcceptanceReceipt
  attempts : List ExecutionAttempt
  provisioning : List ProvisioningAttempt
  state : StepState
  deriving DecidableEq

structure Objective where
  version : Int
  objectiveID : String
  revision : Nat
  state : ObjectiveState
  scope : ObjectiveScope
  policy : ResolutionPolicy
  steps : List ObjectiveStep
  deriving DecidableEq

def Objective.terminal (o : Objective) : Bool := o.state.settled

def Objective.stepIndex (o : Objective) (stepID : String) : Option Nat :=
  o.steps.findIdx? fun step => step.stepID = Text.trimSpace stepID

def activeProvisioning (step : ObjectiveStep) : Bool :=
  step.provisioning.getLast?.any fun last => last.state.active

def sameCommandAcceptanceContractMode (steps : List ObjectiveStep) : Bool :=
  let contracted := steps.countP fun step => step.acceptanceContract.isSome
  contracted = 0 || contracted = steps.length

def CommandAcceptanceReceipt.validFor (receipt : CommandAcceptanceReceipt) (o : Objective)
    (stepIndex : Nat) : Bool :=
  match o.steps[stepIndex]? with
  | none => false
  | some step =>
    receipt.objectiveID = o.objectiveID && receipt.exitCode = 0 && step.stepID = receipt.stepID &&
      match step.acceptanceContract, step.attempts.getLast? with
      | some contract, some attempt =>
        receipt.validExecutionIdentity attempt.executionClass && attempt.state = .succeeded &&
          receipt.attemptID = attempt.attemptID &&
          receipt.contractDigest = contract.digest o.objectiveID step.stepID o.policy &&
          receipt.commandDigest = contract.commandDigest &&
          receipt.sourceDigest = contract.sourceDigest &&
          receipt.sourceDigest = attempt.sourceDigest &&
          receipt.environmentDigest = attempt.environmentDigest &&
          receipt.privateBodyRef = contract.privateBodyRef &&
          receipt.privateBodyDigest = contract.privateBodyDigest &&
          receipt.artifactRefs = contract.artifactRefs
      | _, _ => false

def snapshotInvalid : String := "development objective snapshot is invalid"
def attemptSnapshotInvalid : String := "development objective attempt snapshot is invalid"

/-- One attempt of a step, after the one before it; the identities of the whole objective
share one namespace. -/
def checkAttempt (stepID : String) (scan : Option ExecutionAttempt × List String)
    (attempt : ExecutionAttempt) : Except String (Option ExecutionAttempt × List String) := do
  reject (!attempt.validIdentity || attempt.stepID ≠ stepID) attemptSnapshotInvalid
  reject (scan.2.contains attempt.attemptID) attemptSnapshotInvalid
  reject (match scan.1 with
    | none => attempt.parentAttemptID ≠ ""
    | some previous => !validAttemptContinuation previous attempt) attemptSnapshotInvalid
  reject (if attempt.state = .failed then (continuationForFailure attempt.failure).isNone
    else attempt.failure ≠ none) attemptSnapshotInvalid
  pure (some attempt, attempt.attemptID :: scan.2)

def validateObjectiveAttempts (step : ObjectiveStep) (used : List String) : Except String (List String) := do
  let scan ← step.attempts.foldlM (checkAttempt step.stepID) (none, used)
  pure scan.2

/-- One provisioning attempt; only the last of a step may be active. -/
def checkProvision (policy : ResolutionPolicy) (count : Nat) (used : List String)
    (entry : ProvisioningAttempt × Nat) : Except String (List String) := do
  reject (!entry.1.valid || !policy.allowsClass entry.1.plan.outputClass)
    "development provisioning snapshot is invalid"
  reject (used.contains entry.1.provisionID) "development provisioning identity duplicated"
  reject (entry.2 + 1 < count && entry.1.state.active) "development provisioning history is active"
  pure (entry.1.provisionID :: used)

def validateObjectiveProvisioning (step : ObjectiveStep) (policy : ResolutionPolicy)
    (used : List String) : Except String (List String) := do
  reject (step.provisioning.length > maxProvisioningAttemptsPerStep)
    "development provisioning bound exceeded"
  let used ← step.provisioning.zipIdx.foldlM (checkProvision policy step.provisioning.length) used
  reject (activeProvisioning step &&
    (step.state = .running || step.state = .succeeded || step.state = .cancelled))
    "development provisioning overlaps execution"
  reject (activeProvisioning step &&
    !step.provisioning.getLast?.any fun last => last.plan.covers step.requirements)
    "development provisioning no longer covers requirements"
  pure used

def stepStateMatchesAttempts (step : ObjectiveStep) : Bool :=
  match step.attempts.getLast? with
  | none => step.state = .planned || step.state = .cancelled
  | some last =>
    match last.state with
    | .planned => step.state = .planned
    | .running => step.state = .running
    | .succeeded => step.state = .succeeded
    | .failed => step.state = .failed
    | .cancelled => step.state = .cancelled

structure SnapshotScan where
  stepIDs : List String
  identities : List String
  operationIDs : List String
  receipts : Nat
  deriving DecidableEq

def checkReceipt (o : Objective) (scan : SnapshotScan) (step : ObjectiveStep) (index : Nat) :
    Except String SnapshotScan :=
  match step.acceptanceReceipt with
  | none => .ok scan
  | some receipt => do
    reject (step.acceptanceContract.isNone || o.state ≠ .accepted || !receipt.validFor o index)
      "development command acceptance receipt is invalid"
    reject (scan.operationIDs.contains receipt.operationID)
      "development command acceptance receipt is duplicated"
    pure { scan with
      operationIDs := receipt.operationID :: scan.operationIDs, receipts := scan.receipts + 1 }

def checkStep (o : Objective) (scan : SnapshotScan) (entry : ObjectiveStep × Nat) :
    Except String SnapshotScan := do
  let step := entry.1
  reject (!identityPattern.matchString step.stepID || step.attempts.length > maxAttemptsPerStep)
    snapshotInvalid
  reject (scan.stepIDs.contains step.stepID) snapshotInvalid
  let normalized ← orFail snapshotInvalid (normalizeRequirementList step.requirements)
  reject (step.requirements ≠ normalized) snapshotInvalid
  let used ← validateObjectiveAttempts step scan.identities
  reject (step.acceptanceContract.any fun contract => !contract.validFor o.policy step.requirements)
    "development command acceptance contract is invalid"
  reject (step.acceptanceContract.any fun contract =>
    step.attempts.any fun attempt => attempt.sourceDigest ≠ contract.sourceDigest)
    "development command acceptance source changed"
  let scan ← checkReceipt o scan step entry.2
  reject (step.attempts.any fun attempt => !o.policy.allowsClass attempt.executionClass)
    "development attempt exceeds authority policy"
  let used ← validateObjectiveProvisioning step o.policy used
  reject (!stepStateMatchesAttempts step) snapshotInvalid
  pure { scan with stepIDs := step.stepID :: scan.stepIDs, identities := used }

def objectiveHasFailureClass (o : Objective) (failure : FailureClass) : Bool :=
  o.steps.any fun step => step.attempts.any fun attempt =>
    attempt.state = .failed && attempt.failure = some failure

def checkObjectiveState (o : Objective) (receipts : Nat) : Except String Unit := do
  let allSucceeded := o.steps.all fun step => step.state = .succeeded
  let contracted := o.steps.head?.any fun step => step.acceptanceContract.isSome
  match o.state with
  | .planned =>
    reject (o.steps.any fun step => step.state ≠ .planned || !step.attempts.isEmpty ||
      !step.provisioning.isEmpty) snapshotInvalid
  | .running => reject allSucceeded snapshotInvalid
  | .acceptancePending => do
    reject (!allSucceeded) snapshotInvalid
    reject (receipts ≠ 0) "development acceptance evidence is premature"
  | .accepted => do
    reject (!allSucceeded) snapshotInvalid
    reject ((contracted && receipts ≠ o.steps.length) || (!contracted && receipts ≠ 0))
      "development accepted objective lacks required evidence"
  | .reconciliationRequired =>
    reject (!objectiveHasFailureClass o .reconciliationNeeded) snapshotInvalid
  | .failed => reject (!o.steps.any fun step => step.state = .failed) snapshotInvalid
  | .cancelled =>
    reject (o.steps.any fun step => step.state = .running || step.state = .planned ||
      activeProvisioning step) snapshotInvalid

def validateObjectiveSnapshot (o : Objective) : Except String Unit := do
  reject (o.version ≠ objectiveVersion || !identityPattern.matchString o.objectiveID ||
    o.revision = 0 || !o.scope.validOrEmpty || !o.policy.valid || o.steps.isEmpty ||
    o.steps.length > maxObjectiveSteps) snapshotInvalid
  reject (!sameCommandAcceptanceContractMode o.steps) "development objective acceptance mode is invalid"
  let scan ← o.steps.zipIdx.foldlM (checkStep o) ⟨[], [], [], 0⟩
  checkObjectiveState o scan.receipts

def Objective.valid (o : Objective) : Bool := accepted (validateObjectiveSnapshot o)

end Aeontra.Development
