import Aeontra.Development.Operations

/-!
The check that one durable revision of an objective extends the one before it.
-/

namespace Aeontra.Development

open Library Workqueue

def validObjectiveStateTransition (before after : ObjectiveState) : Bool :=
  before = after ||
    match before with
    | .planned => after = .running || after = .cancelled
    | .running => after = .acceptancePending || after = .reconciliationRequired ||
        after = .failed || after = .cancelled
    | .acceptancePending => after = .accepted || after = .cancelled
    | .reconciliationRequired => after = .running || after = .failed || after = .cancelled
    | _ => false

def validStepStateTransition (before after : StepState) : Bool :=
  before = after ||
    match before with
    | .planned => after = .running || after = .failed || after = .cancelled
    | .running => after = .succeeded || after = .failed || after = .cancelled
    | .failed => after = .planned
    | _ => false

def ExecutionAttempt.identity (attempt : ExecutionAttempt) : ExecutionAttempt :=
  { attempt with state := .planned, failure := none }

def validAttemptRevision (before after : ExecutionAttempt) : Bool :=
  before.identity = after.identity &&
    ((before.state = after.state && before.failure = after.failure) ||
      match before.state with
      | .planned => ((after.state = .running || after.state = .cancelled) && after.failure = none) ||
          (after.state = .failed && preflightFailureAllowed after.failure)
      | .running => (after.state = .succeeded && after.failure = none) ||
          (if after.state = .failed then (continuationForFailure after.failure).isSome
          else after.state = .cancelled && after.failure = none)
      | _ => false)

/-- Walk through `after`, consuming `before` where the heads agree. -/
def requirementsLeft : List Requirement → List Requirement → List Requirement
  | before, [] => before
  | [], _ :: after => requirementsLeft [] after
  | first :: before, requirement :: after =>
    if first = requirement then requirementsLeft before after
    else requirementsLeft (first :: before) after

def requirementsSubset (before after : List Requirement) : Bool := (requirementsLeft before after).isEmpty

/-- The attempts before the last are compared, the last may be revised or have a successor. -/
def validProvisionHistory (before after : List ProvisioningAttempt) : Bool :=
  before.length ≤ after.length && after.length ≤ before.length + 1 &&
    ((before.zip after).zipIdx.all fun entry =>
      if entry.2 + 1 = before.length && before.length = after.length then
        validProvisionRevision entry.1.1 entry.1.2
      else sameProvisionAttempt entry.1.1 entry.1.2) &&
    (after.length ≠ before.length + 1 ||
      (!before.getLast?.any (fun last => last.state.active) &&
        after.getLast?.any fun last => last.state = .planned))

def validAcceptanceReceiptTransition (previousState nextState : ObjectiveState)
    (before after : ObjectiveStep) : Bool :=
  match before.acceptanceReceipt, after.acceptanceReceipt with
  | none, none => true
  | none, some _ => before.acceptanceContract.isSome && previousState = .acceptancePending &&
      nextState = .accepted
  | some _, none => false
  | some left, some right => sameCommandAcceptanceReceipt left right

/-- One attempt more than before, following the last failed one. -/
def validAttemptAddition (before after : List ExecutionAttempt) : Bool :=
  after.take before.length = before &&
    after.getLast?.any fun added => added.state = .planned &&
      match before.getLast? with
      | none => added.parentAttemptID = ""
      | some previous => previous.state = .failed && added.parentAttemptID = previous.attemptID

/-- As many attempts as before, of which only the last may be revised. -/
def validAttemptChange (before after : List ExecutionAttempt) : Bool :=
  match before.getLast?, after.getLast? with
  | some old, some new => before.dropLast = after.dropLast && validAttemptRevision old new
  | _, _ => before.isEmpty

def validAttemptHistory (before after : List ExecutionAttempt) : Bool :=
  if after.length = before.length + 1 then validAttemptAddition before after
  else validAttemptChange before after

def transitionInvalid : String := "development objective transition is invalid"

def validateStepTransition (previous next : Objective) (pair : ObjectiveStep × ObjectiveStep) :
    Except String Unit := do
  let (before, after) := pair
  reject (activeProvisioning before && before.requirements ≠ after.requirements)
    "development active provisioning contract is immutable"
  reject (!validProvisionHistory before.provisioning after.provisioning)
    "development provisioning history transition is invalid"
  reject (after.provisioning.length > before.provisioning.length && !canPlanProvisioning before)
    "development failure does not authorize provisioning"
  reject (before.stepID ≠ after.stepID || before.acceptanceContract ≠ after.acceptanceContract ||
    !validAcceptanceReceiptTransition previous.state next.state before after ||
    !requirementsSubset before.requirements after.requirements ||
    !validStepStateTransition before.state after.state ||
    after.attempts.length < before.attempts.length ||
    after.attempts.length > before.attempts.length + 1) transitionInvalid
  reject (!validAttemptHistory before.attempts after.attempts) transitionInvalid

def validateTransition (previous next : Objective) : Except String Unit := do
  reject (!previous.valid || !next.valid || previous.terminal || previous.version ≠ next.version ||
    previous.objectiveID ≠ next.objectiveID || previous.scope ≠ next.scope ||
    next.revision ≠ (previous.revision + 1) % 2 ^ 64 ||
    previous.policy.maxTier ≠ next.policy.maxTier ||
    previous.policy.allowed ≠ next.policy.allowed || previous.steps.length ≠ next.steps.length ||
    !validObjectiveStateTransition previous.state next.state) transitionInvalid
  (previous.steps.zip next.steps).forM (validateStepTransition previous next)

end Aeontra.Development
