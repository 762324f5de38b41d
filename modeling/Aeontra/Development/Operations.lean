import Aeontra.Development.Objective

/-!
The operations of an objective.

Each operation returns a new objective one revision later, or the same one, or an error.
-/

namespace Aeontra.Development

open Library Workqueue

structure StepSpec where
  stepID : String
  requirements : List Requirement
  acceptanceContract : Option CommandAcceptanceContract
  deriving DecidableEq

def newStep (policy : ResolutionPolicy) (seen : List String) (spec : StepSpec) :
    Except String ObjectiveStep := do
  let stepID := Text.trimSpace spec.stepID
  reject (!identityPattern.matchString stepID) "development objective step is invalid"
  reject (seen.contains stepID) "development objective step is duplicated"
  let requirements ← normalizeRequirementList spec.requirements
  reject (spec.acceptanceContract.any fun contract => !contract.validFor policy requirements)
    "development command acceptance contract does not match objective"
  pure ⟨stepID, requirements, spec.acceptanceContract, none, [], [], .planned⟩

def newObjective (objectiveID : String) (policy : ResolutionPolicy) (specs : List StepSpec) :
    Except String Objective := do
  let objectiveID := Text.trimSpace objectiveID
  reject (!identityPattern.matchString objectiveID || !policy.valid || specs.isEmpty ||
    specs.length > maxObjectiveSteps) "development objective is invalid"
  let steps ← specs.foldlM (fun steps spec => do
    let step ← newStep policy (steps.map ObjectiveStep.stepID) spec
    pure (steps ++ [step])) []
  reject (!sameCommandAcceptanceContractMode steps)
    "development objective cannot mix command and semantic acceptance"
  pure ⟨objectiveVersion, objectiveID, 1, .planned, .empty, policy, steps⟩

def newScopedObjective (objectiveID : String) (scope : ObjectiveScope) (policy : ResolutionPolicy)
    (specs : List StepSpec) : Except String Objective := do
  reject (!scope.bound) "development objective scope is invalid"
  let objective ← newObjective objectiveID policy specs
  pure { objective with scope := scope }

def replaceLast {α : Type} (items : List α) (last : α) : List α := items.dropLast ++ [last]

namespace Objective

def openStep (o : Objective) (stepID message : String) : Except String (Nat × ObjectiveStep) := do
  let index ← required message (o.stepIndex stepID)
  reject o.terminal message
  let step ← required message o.steps[index]?
  pure (index, step)

def revise (o : Objective) (index : Nat) (step : ObjectiveStep) (state : ObjectiveState) : Objective :=
  { o with steps := o.steps.set index step, state := state, revision := (o.revision + 1) % 2 ^ 64 }

def refineRequirements (o : Objective) (stepID : String) (additional : List Requirement) :
    Except String Objective := do
  let (index, step) ← o.openStep stepID "development objective cannot refine requirements"
  reject (step.state = .running || step.state = .succeeded || activeProvisioning step ||
    step.acceptanceContract.isSome) "development objective cannot refine active or succeeded step"
  let normalized ← normalizeRequirementList (step.requirements ++ additional)
  if step.requirements = normalized then pure o
  else pure (o.revise index { step with requirements := normalized } o.state)

def exactEnvironmentByDigest (candidates : List EnvironmentAttestation) (digest : String) :
    Option EnvironmentAttestation :=
  candidates.find? fun candidate => candidate.valid && candidate.digest = digest

def continuationEnvironment (policy : ResolutionPolicy) (step : ObjectiveStep)
    (previous : ExecutionAttempt) (candidates : List EnvironmentAttestation) :
    Except String EnvironmentAttestation := do
  let external := "development objective failure requires external resolution"
  let action ← required external (continuationForFailure previous.failure)
  match action with
  | .stopPolicy | .reconcile => .error external
  | .fixCode | .retrySameEnvironment => do
    let environment ← required "development objective previous environment is unavailable"
      (exactEnvironmentByDigest candidates previous.environmentDigest)
    reject (!policy.allows environment) "development objective previous environment is unavailable"
    reject (!(environment.capabilities.missing step.requirements).isEmpty)
      "development objective previous environment no longer satisfies requirements"
    pure environment
  | .provisionOrMigrate => do
    let resolution ← resolve step.requirements none candidates policy
    pure resolution.environment

def nextAttempt (policy : ResolutionPolicy) (step : ObjectiveStep) (attemptID sourceDigest : String)
    (candidates : List EnvironmentAttestation) : Except String (ExecutionAttempt × Resolution) :=
  match step.attempts.getLast? with
  | none => do
    let resolution ← resolve step.requirements none candidates policy
    let attempt ← newExecutionAttempt attemptID step.stepID sourceDigest resolution.environment
    pure (attempt, resolution)
  | some previous => do
    reject (previous.state ≠ .failed) "development objective previous attempt is not failed"
    let environment ← continuationEnvironment policy step previous candidates
    let attempt ← continueExecutionAttempt attemptID sourceDigest previous environment
    pure (attempt, ⟨environment, previous.environmentDigest ≠ environment.digest⟩)

def planAttempt (o : Objective) (stepID attemptID sourceDigest : String)
    (candidates : List EnvironmentAttestation) : Except String (Objective × Resolution) := do
  let (index, step) ← o.openStep stepID "development objective cannot plan attempt"
  reject (step.acceptanceContract.any fun contract =>
    Text.trimSpace sourceDigest ≠ contract.sourceDigest)
    "development command acceptance source digest changed"
  reject (activeProvisioning step) "development provisioning is still active"
  reject (step.state = .succeeded) "development objective step already succeeded"
  reject (step.attempts.length ≥ maxAttemptsPerStep)
    "development objective attempt budget is exhausted"
  let (attempt, resolution) ← nextAttempt o.policy step attemptID sourceDigest candidates
  pure (o.revise index { step with attempts := step.attempts ++ [attempt], state := .planned } .running,
    resolution)

def changeAttempt (step : ObjectiveStep) (state : StepState)
    (change : ExecutionAttempt → Except String ExecutionAttempt) : Except String ObjectiveStep := do
  let last ← required "development objective attempt is missing" step.attempts.getLast?
  let next ← change last
  pure { step with attempts := replaceLast step.attempts next, state := state }

def startAttempt (o : Objective) (stepID : String) : Except String Objective := do
  let (index, step) ← o.openStep stepID "development objective cannot start attempt"
  let step ← changeAttempt step .running fun last => last.transition .running
  pure (o.revise index step .running)

def failureState : ContinuationAction → ObjectiveState
  | .reconcile => .reconciliationRequired
  | .stopPolicy => .failed
  | _ => .running

def rejectAttempt (o : Objective) (stepID : String) (failure : FailureClass) :
    Except String (Objective × ContinuationAction) := do
  let (index, step) ← o.openStep stepID "development objective cannot reject attempt"
  reject (!preflightFailureAllowed (some failure))
    "development objective preflight failure class is invalid"
  let step ← changeAttempt step .failed fun last => last.rejectPreflight failure
  pure (o.revise index step (failureState failure.action), failure.action)

def failAttempt (o : Objective) (stepID : String) (failure : FailureClass) :
    Except String (Objective × ContinuationAction) := do
  let (index, step) ← o.openStep stepID "development objective cannot fail attempt"
  let step ← changeAttempt step .failed fun last => last.fail failure
  pure (o.revise index step (failureState failure.action), failure.action)

def completeAttempt (o : Objective) (stepID : String) : Except String Objective := do
  let (index, step) ← o.openStep stepID "development objective cannot complete attempt"
  let step ← changeAttempt step .succeeded fun last => last.transition .succeeded
  let allSucceeded := (o.steps.set index step).all fun candidate => candidate.state = .succeeded
  pure (o.revise index step (if allSucceeded then .acceptancePending else .running))

def settle (o : Objective) (steps : List ObjectiveStep) (state : ObjectiveState) : Objective :=
  { o with steps := steps, state := state, revision := (o.revision + 1) % 2 ^ 64 }

def accept (o : Objective) : Except String Objective := do
  reject (o.state ≠ .acceptancePending || !sameCommandAcceptanceContractMode o.steps ||
    o.steps.isEmpty || o.steps.head?.any fun step => step.acceptanceContract.isSome)
    "development objective is not ready for acceptance"
  pure (o.settle o.steps .accepted)

/-- Attach one receipt; the operations already seen come first. -/
def attachReceipt (o : Objective) (scan : List String × List ObjectiveStep)
    (receipt : CommandAcceptanceReceipt) : Except String (List String × List ObjectiveStep) := do
  let mismatch := "development command acceptance evidence does not match objective"
  let index ← required mismatch (o.stepIndex receipt.stepID)
  reject (!receipt.validFor o index) mismatch
  reject (scan.1.contains receipt.operationID)
    "development command acceptance evidence is duplicated"
  pure (receipt.operationID :: scan.1,
    scan.2.modify index fun step => { step with acceptanceReceipt := some receipt })

def acceptWithEvidence (o : Objective) (receipts : List CommandAcceptanceReceipt) :
    Except String Objective := do
  reject (!o.valid || o.state ≠ .acceptancePending || o.steps.isEmpty ||
    !sameCommandAcceptanceContractMode o.steps ||
    o.steps.head?.any fun step => step.acceptanceContract.isNone)
    "development objective is not ready for command acceptance"
  reject (receipts.length ≠ o.steps.length)
    "development command acceptance evidence is incomplete"
  let scan ← receipts.foldlM o.attachReceipt ([], o.steps)
  let next := o.settle scan.2 .accepted
  reject (!next.valid) "development command acceptance evidence is invalid"
  pure next

def cancelProvisioning (step : ObjectiveStep) : Except String ObjectiveStep :=
  match step.provisioning.getLast? with
  | none => .ok step
  | some last =>
    if last.state.active then do
      let cancelled ← last.cancel
      pure { step with provisioning := replaceLast step.provisioning cancelled }
    else .ok step

def cancelStep (step : ObjectiveStep) : Except String ObjectiveStep := do
  let step ← cancelProvisioning step
  if step.state = .succeeded || step.state = .failed || step.state = .cancelled then pure step
  else
    match step.attempts.getLast? with
    | none => pure { step with state := .cancelled }
    | some last => do
      reject (last.state ≠ .planned && last.state ≠ .running)
        "development objective cannot cancel attempt"
      let cancelled ← last.transition .cancelled
      pure { step with attempts := replaceLast step.attempts cancelled, state := .cancelled }

def cancel (o : Objective) : Except String Objective := do
  reject o.terminal "development objective is terminal"
  let steps ← o.steps.mapM cancelStep
  pure (o.settle steps .cancelled)

end Objective

def canPlanProvisioning (step : ObjectiveStep) : Bool :=
  (step.state = .planned || step.state = .failed) && !activeProvisioning step &&
    (match step.attempts.getLast? with
    | none => true
    | some last => last.state = .failed &&
        continuationForFailure last.failure = some .provisionOrMigrate) &&
    match step.provisioning.getLast? with
    | none => true
    | some last =>
      match last.state with
      | .cancelled => false
      | .failed => continuationForFailure last.failure = some .provisionOrMigrate ||
          continuationForFailure last.failure = some .retrySameEnvironment
      | _ => true

namespace Objective

def planProvisioning (o : Objective) (stepID provisionID sourceDigest : String)
    (plan : ProvisionPlan) : Except String Objective := do
  let refused := "development objective cannot provision"
  reject (!o.valid) refused
  let (index, step) ← o.openStep stepID refused
  reject (!o.scope.bound || !o.policy.allowsClass plan.outputClass) refused
  reject ((step.state ≠ .planned && step.state ≠ .failed) || activeProvisioning step ||
    step.provisioning.length ≥ maxProvisioningAttemptsPerStep || !plan.covers step.requirements)
    "development objective provisioning contract is invalid"
  reject (!canPlanProvisioning step) "development objective failure does not authorize provisioning"
  let provision ← newProvisioningAttempt provisionID sourceDigest plan
  let next := o.revise index { step with provisioning := step.provisioning ++ [provision] } .running
  reject (!next.valid) "development provisioning snapshot is invalid"
  pure next

def advanceProvision (o : Objective) (stepID provisionID : String)
    (change : ProvisioningAttempt → Except String ProvisioningAttempt) : Except String Objective := do
  let unavailable := "development provisioning is unavailable"
  reject (!o.valid) unavailable
  let (index, step) ← o.openStep stepID unavailable
  let last ← required unavailable step.provisioning.getLast?
  reject (last.provisionID ≠ provisionID) "development provisioning identity mismatch"
  let advanced ← orFail "development provisioning transition is invalid" (change last)
  reject (!validProvisionRevision last advanced) "development provisioning transition is invalid"
  if sameProvisionAttempt last advanced then pure o
  else
    let next := o.revise index
      { step with provisioning := replaceLast step.provisioning advanced } o.state
    reject (!next.valid) "development provisioning snapshot is invalid"
    pure next

def bindProvisionJob (o : Objective) (stepID provisionID jobID : String) : Except String Objective :=
  o.advanceProvision stepID provisionID fun last => last.bindJob jobID

def bindProvisionFence (o : Objective) (stepID provisionID : String) (fence : Nat) : Except String Objective :=
  o.advanceProvision stepID provisionID fun last => last.bindFence fence

def completeProvision (o : Objective) (stepID provisionID receiptDigest : String) : Except String Objective :=
  o.advanceProvision stepID provisionID fun last => last.succeed receiptDigest

def failProvision (o : Objective) (stepID provisionID : String) (failure : FailureClass) :
    Except String Objective :=
  o.advanceProvision stepID provisionID fun last => last.fail failure

end Objective

inductive Operation where
  | refineRequirements (stepID : String) (additional : List Requirement)
  | planAttempt (stepID attemptID sourceDigest : String) (candidates : List EnvironmentAttestation)
  | startAttempt (stepID : String)
  | rejectAttempt (stepID : String) (failure : FailureClass)
  | failAttempt (stepID : String) (failure : FailureClass)
  | completeAttempt (stepID : String)
  | accept
  | acceptWithEvidence (receipts : List CommandAcceptanceReceipt)
  | cancel
  | planProvisioning (stepID provisionID sourceDigest : String) (plan : ProvisionPlan)
  | bindProvisionJob (stepID provisionID jobID : String)
  | bindProvisionFence (stepID provisionID : String) (fence : Nat)
  | completeProvision (stepID provisionID receiptDigest : String)
  | failProvision (stepID provisionID : String) (failure : FailureClass)

def Objective.apply (o : Objective) : Operation → Except String Objective
  | .refineRequirements stepID additional => o.refineRequirements stepID additional
  | .planAttempt stepID attemptID sourceDigest candidates =>
    (o.planAttempt stepID attemptID sourceDigest candidates).map Prod.fst
  | .startAttempt stepID => o.startAttempt stepID
  | .rejectAttempt stepID failure => (o.rejectAttempt stepID failure).map Prod.fst
  | .failAttempt stepID failure => (o.failAttempt stepID failure).map Prod.fst
  | .completeAttempt stepID => o.completeAttempt stepID
  | .accept => o.accept
  | .acceptWithEvidence receipts => o.acceptWithEvidence receipts
  | .cancel => o.cancel
  | .planProvisioning stepID provisionID sourceDigest plan =>
    o.planProvisioning stepID provisionID sourceDigest plan
  | .bindProvisionJob stepID provisionID jobID => o.bindProvisionJob stepID provisionID jobID
  | .bindProvisionFence stepID provisionID fence => o.bindProvisionFence stepID provisionID fence
  | .completeProvision stepID provisionID receiptDigest =>
    o.completeProvision stepID provisionID receiptDigest
  | .failProvision stepID provisionID failure => o.failProvision stepID provisionID failure

end Aeontra.Development
