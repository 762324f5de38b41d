import Aeontra.Development.Attempt

/-!
Command acceptance: the contract a step carries and the receipt that settles it.
-/

namespace Aeontra.Development

open Library Workqueue

def maxAcceptanceArtifactRef : Nat := 32

def privateGoalRefPattern : Pattern := hexPattern "mb_" 32 32
def operationRefPattern : Pattern := hexPattern "eo_" 32 32

structure CommandAcceptanceContract where
  commandDigest : String
  sourceDigest : String
  privateBodyRef : String
  privateBodyDigest : String
  requiredCapabilities : List Requirement
  artifactRefs : List String
  deriving DecidableEq

structure CommandAcceptanceReceipt where
  operationID : String
  evidenceProvider : String
  runnerEffectID : String
  runnerRunID : Int
  runnerReceiptDigest : String
  objectiveID : String
  stepID : String
  attemptID : String
  contractDigest : String
  commandDigest : String
  sourceDigest : String
  environmentDigest : String
  privateBodyRef : String
  privateBodyDigest : String
  exitCode : Int
  artifactRefs : List String
  deriving DecidableEq

def normalizeOpaqueReferences (references : List String) : Except String (List String) := do
  reject (references.length > maxAcceptanceArtifactRef) "development artifact reference bound exceeded"
  reject (references.any fun reference => !identityPattern.matchString reference ||
    Text.contains (chars "..") (chars reference) || Text.contains (chars "://") (chars reference))
    "development artifact reference is invalid"
  let sorted := references.insertionSort (· ≤ ·)
  reject (!ascending sorted) "development artifact reference is duplicated"
  pure sorted

namespace CommandAcceptanceContract

def valid (contract : CommandAcceptanceContract) : Bool :=
  sourceDigestPattern.matchString contract.commandDigest &&
    sourceDigestPattern.matchString contract.sourceDigest &&
    privateGoalRefPattern.matchString contract.privateBodyRef &&
    sourceDigestPattern.matchString contract.privateBodyDigest &&
    contract.requiredCapabilities.length ≤ maxEnvironmentCatalogEntries &&
    contract.artifactRefs.length ≤ maxAcceptanceArtifactRef &&
    (match normalizeRequirementList contract.requiredCapabilities with
    | .ok requirements => contract.requiredCapabilities = requirements
    | .error _ => false) &&
    match normalizeOpaqueReferences contract.artifactRefs with
    | .ok artifacts => contract.artifactRefs = artifacts
    | .error _ => false

def validFor (contract : CommandAcceptanceContract) (policy : ResolutionPolicy)
    (requirements : List Requirement) : Bool :=
  contract.valid && policy.valid && contract.requiredCapabilities = requirements

/-- The artifact references of a contract without any are a nil slice. -/
def digest (contract : CommandAcceptanceContract) (objectiveID stepID : String)
    (policy : ResolutionPolicy) : String :=
  if !contract.valid || !identityPattern.matchString objectiveID ||
      !identityPattern.matchString stepID || !policy.valid then ""
  else
    open JsonText in
    payloadDigest ("aeontra-development-acceptance-contract-v1\x00" ++
      object [Encode.texts "objective_id" objectiveID, Encode.texts "step_id" stepID,
        field "max_tier" (nat policy.maxTier),
        field "allowed_classes" (array (policy.allowed.map fun c => quote c.text)),
        Encode.texts "command_digest" contract.commandDigest,
        Encode.texts "source_digest" contract.sourceDigest,
        Encode.texts "private_body_ref" contract.privateBodyRef,
        Encode.texts "private_body_digest" contract.privateBodyDigest,
        field "required_capabilities" (array (contract.requiredCapabilities.map quote)),
        field "artifact_refs" (if contract.artifactRefs.isEmpty then "null"
          else array (contract.artifactRefs.map quote))])

end CommandAcceptanceContract

/-- An Edge operation and a runner's run have different authorities and namespaces. -/
def CommandAcceptanceReceipt.validExecutionIdentity (receipt : CommandAcceptanceReceipt)
    (executionClass : ExecutionClass) : Bool :=
  if receipt.evidenceProvider = "github-run" then
    executionClass = .isolatedRunner && receipt.operationID = "" &&
      runnerEffectPattern.matchString receipt.runnerEffectID && 0 < receipt.runnerRunID &&
      sourceDigestPattern.matchString receipt.runnerReceiptDigest
  else
    receipt.evidenceProvider = "" && executionClass ≠ .isolatedRunner &&
      operationRefPattern.matchString receipt.operationID && receipt.runnerEffectID = "" &&
      receipt.runnerRunID = 0 && receipt.runnerReceiptDigest = ""

def sameCommandAcceptanceReceipt (left right : CommandAcceptanceReceipt) : Bool :=
  left.operationID = right.operationID && left.objectiveID = right.objectiveID &&
    left.stepID = right.stepID && left.attemptID = right.attemptID &&
    left.contractDigest = right.contractDigest && left.commandDigest = right.commandDigest &&
    left.sourceDigest = right.sourceDigest && left.environmentDigest = right.environmentDigest &&
    left.privateBodyRef = right.privateBodyRef && left.privateBodyDigest = right.privateBodyDigest &&
    left.exitCode = right.exitCode && left.artifactRefs = right.artifactRefs

end Aeontra.Development
