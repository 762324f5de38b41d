import Aeontra.Workqueue.TaskTypes

/-!
The checks on task specifications, receipts and assembled task groups.
-/

namespace Aeontra.Workqueue

open Library

def payloadDigest (text : String) : String := "sha256:" ++ sha256Hex text

/-- The domain separator in front of every integration encoding. -/
def integrationDigest (encoded : String) : String := payloadDigest ("task-integration-v1\n" ++ encoded)

def validateTaskAcceptanceContract : Option TaskAcceptanceContract → Except String Unit
  | none => .ok ()
  | some c =>
    reject (c.version ≠ 1 || c.minimumCommitsAheadPerWorker < 1 ||
      c.minimumCommitsAheadPerWorker > 10000 || c.minimumChangedPathsPerWorker < 1 ||
      c.minimumChangedPathsPerWorker > 10000) "workqueue: task acceptance contract is invalid"

def validateTaskTestAcceptanceContract : Option TaskTestAcceptanceContract → Except String Unit
  | none => .ok ()
  | some c =>
    reject (c.version ≠ 1 || !profilePattern.matchString c.profileID ||
      !payloadHashPattern.matchString c.profileDigest)
      "workqueue: task test acceptance contract is invalid"

def validateTaskObjectiveContract : Option TaskObjectiveContract → Except String Unit
  | none => .ok ()
  | some c =>
    reject (c.version ≠ 1 || c.minimumCommitsAheadPerWorker < 0 ||
      c.minimumCommitsAheadPerWorker > 10000 || c.minimumChangedPathsPerWorker < 0 ||
      c.minimumChangedPathsPerWorker > 10000) "workqueue: objective contract is invalid"

/-- The loop over the selected sources, with the ordinals already seen. -/
def checkIntegrationWorkers : List Int → List TaskIntegrationWorker → Except String Unit
  | _, [] => .ok ()
  | seen, worker :: rest => do
    reject (worker.ordinal < 0 || worker.ordinal ≥ maxTaskWorkers || seen.contains worker.ordinal ||
      !taskCommitPattern.matchString worker.headCommit)
      "workqueue: integration source selection is invalid"
    checkIntegrationWorkers (worker.ordinal :: seen) rest

def validateTaskIntegrationContract : Option TaskIntegrationContract → Except String Unit
  | none => .ok ()
  | some c => do
    reject (c.version ≠ 1 || !taskCommitPattern.matchString c.expectedBaseCommit ||
      !taskIDPattern.matchString c.sourceTaskID || c.workers.length < 2 ||
      c.workers.length > maxTaskWorkers) "workqueue: integration contract is invalid"
    checkIntegrationWorkers [] c.workers

def accepted {α : Type} : Except String α → Bool
  | .ok _ => true
  | .error _ => false

def validPin (c : TaskIntegrationContract) (selected : TaskIntegrationWorker)
    (p : TaskIntegrationSourcePin) : Bool :=
  p.taskID = c.sourceTaskID && p.ordinal = selected.ordinal && p.headCommit = selected.headCommit &&
    p.baseCommit = c.expectedBaseCommit && jobIDPattern.matchString p.jobID &&
    taskRuntimePattern.matchString p.runtimeID && taskWorktreePattern.matchString p.worktreeID &&
    taskWorkspacePattern.matchString p.workspaceID && leaseIDPattern.matchString p.leaseID &&
    p.fence ≠ 0 && p.branch = "codex/worktree-" ++ String.ofList ((chars p.worktreeID).drop 3) &&
    [p.gitReceiptDigest, p.testReceiptDigest, p.objectiveReceiptDigest].all fun digest =>
      digest = "" || payloadHashPattern.matchString digest

def validTaskIntegrationSpec (spec : TaskSpec) : Bool :=
  match spec.integrationContract with
  | none => spec.integrationPins.items.length = 0
  | some c =>
    accepted (validateTaskIntegrationContract (some c)) && spec.workerCount = 1 &&
      spec.baseCommit = c.expectedBaseCommit &&
      (spec.objectiveContract.any fun objective => objective.requireClean) &&
      spec.testAcceptanceContract.isSome &&
      spec.integrationPins.items.length = c.workers.length &&
      (c.workers.zip spec.integrationPins.items).all fun (selected, p) => validPin c selected p

/-- The caller's specification with its texts trimmed and put in lower case. -/
def normalizeTaskSpec (spec : TaskSpec) : TaskSpec :=
  let lowered (text : String) := Text.lowerText (Text.trimSpace text)
  { spec with
    idempotencyKey := Text.trimSpace spec.idempotencyKey
    project := lowered spec.project
    target := lowered spec.target
    baseCommit := lowered spec.baseCommit
    goalHash := lowered spec.goalHash
    pool := lowered spec.pool
    profile := lowered spec.profile
    testAcceptanceContract := spec.testAcceptanceContract.map fun c =>
      { c with profileID := lowered c.profileID, profileDigest := lowered c.profileDigest }
    workerGoalHashes := spec.workerGoalHashes.map lowered
    workerGoalRefs := spec.workerGoalRefs.map Text.trimSpace }

def validateTaskSpec (spec : TaskSpec) : Except String Unit := do
  reject (byteLength spec.idempotencyKey > 118 ||
    !idempotencyPattern.matchString spec.idempotencyKey ||
    !taskProjectPattern.matchString spec.project || !taskTargetPattern.matchString spec.target ||
    !taskCommitPattern.matchString spec.baseCommit || !payloadHashPattern.matchString spec.goalHash ||
    !poolPattern.matchString spec.pool || !profilePattern.matchString spec.profile ||
    spec.workerCount < 1 || spec.workerCount > maxTaskWorkers || spec.executionTimeoutSeconds < 1 ||
    spec.executionTimeoutSeconds > 86400 || (spec.workerGoalHashes.length : Int) ≠ spec.workerCount ||
    (spec.workerGoalRefs.length : Int) ≠ spec.workerCount ||
    !accepted (validateTaskAcceptanceContract spec.acceptanceContract) ||
    !accepted (validateTaskTestAcceptanceContract spec.testAcceptanceContract) ||
    (spec.acceptanceContract.isSome && spec.testAcceptanceContract.isSome) ||
    !accepted (validateTaskObjectiveContract spec.objectiveContract) ||
    (spec.objectiveContract.isSome && (spec.testAcceptanceContract.isNone || spec.acceptanceContract.isSome)) ||
    !validTaskIntegrationSpec spec) "workqueue: task specification is invalid"
  reject ((spec.workerGoalHashes.zip spec.workerGoalRefs).any fun (hash, ref) =>
    !payloadHashPattern.matchString hash || !taskGoalRefPattern.matchString ref)
    "workqueue: task worker goal is invalid"

def validTaskWorkerBinding (binding : TaskWorkerBinding) : Bool :=
  taskIDPattern.matchString binding.taskID && 0 ≤ binding.ordinal &&
    binding.ordinal < maxTaskWorkers && jobIDPattern.matchString binding.jobID &&
    leaseIDPattern.matchString binding.leaseID && binding.fence > 0 &&
    taskWorktreePattern.matchString binding.worktreeID &&
    taskWorkspacePattern.matchString binding.workspaceID &&
    (binding.runtimeID = "" || taskRuntimePattern.matchString binding.runtimeID)

def taskAcceptanceContractDigest : Option TaskAcceptanceContract → String
  | none => ""
  | some c =>
    if accepted (validateTaskAcceptanceContract (some c)) then
      payloadDigest ("task-git-evidence-v" ++ toString c.version ++ "\n" ++
        toString c.minimumCommitsAheadPerWorker ++ "\n" ++ toString c.minimumChangedPathsPerWorker)
    else ""

def taskTestAcceptanceContractDigest : Option TaskTestAcceptanceContract → String
  | none => ""
  | some c =>
    if accepted (validateTaskTestAcceptanceContract (some c)) then
      payloadDigest ("task-test-acceptance-v" ++ toString c.version ++ "\n" ++ c.profileID ++ "\n" ++
        c.profileDigest)
    else ""

def taskObjectiveContractDigest (task : TaskGroup) (worker : TaskWorker) : String :=
  match task.objectiveContract with
  | none => ""
  | some c =>
    if accepted (validateTaskObjectiveContract (some c)) && task.testAcceptanceContract.isSome then
      payloadDigest ("task-objective-v" ++ toString c.version ++ "\n" ++ task.goalHash ++ "\n" ++
        worker.goalHash ++ "\n" ++ taskTestAcceptanceContractDigest task.testAcceptanceContract ++
        "\n" ++ toString c.minimumCommitsAheadPerWorker ++ "\n" ++
        toString c.minimumChangedPathsPerWorker ++ "\n" ++ JsonText.bool c.requireClean)
    else ""

def taskTestReceiptDigest (receipt : TaskTestAcceptanceReceipt) : String :=
  payloadDigest (Encode.testAcceptanceReceipt receipt)

def taskIntegrationPin (source : TaskGroup) (w : TaskWorker) (ordinal : Int) (head : String) :
    TaskIntegrationSourcePin where
  taskID := source.id
  ordinal := ordinal
  jobID := w.jobID
  runtimeID := w.runtimeID
  worktreeID := w.worktreeID
  workspaceID := w.workspaceID
  baseCommit := source.baseCommit
  headCommit := head
  branch := "codex/worktree-" ++ Text.withoutPrefix "wt_" w.worktreeID
  leaseID := w.leaseID
  fence := w.fence
  gitReceiptDigest := (w.acceptanceReceipt.map fun r => integrationDigest (Encode.acceptanceReceipt r)).getD ""
  testReceiptDigest :=
    (w.testAcceptanceReceipt.map fun r => integrationDigest (Encode.testAcceptanceReceipt r)).getD ""
  objectiveReceiptDigest :=
    (w.objectiveReceipt.map fun r => integrationDigest (Encode.objectiveReceipt r)).getD ""

def taskBranch (worker : TaskWorker) : String := "codex/worktree-" ++ Text.withoutPrefix "wt_" worker.worktreeID

def validTaskAcceptanceReceipt (task : TaskGroup) (worker : TaskWorker)
    (receipt : TaskAcceptanceReceipt) : Bool :=
  match task.acceptanceContract with
  | none => false
  | some contract =>
    accepted (validateTaskAcceptanceContract (some contract)) && receipt.version = 1 &&
      receipt.taskID = task.id && receipt.ordinal = worker.ordinal &&
      receipt.jobID = worker.jobID && receipt.worktreeID = worker.worktreeID &&
      receipt.workspaceID = worker.workspaceID && receipt.worktreeRole = "writer" &&
      receipt.baseCommit = task.baseCommit && taskCommitPattern.matchString receipt.headCommit &&
      receipt.headCommit = Text.lowerText receipt.headCommit && receipt.branch = taskBranch worker &&
      worker.worktreeID ≠ "" && worker.workspaceID ≠ "" && worker.state = .succeeded &&
      receipt.leaseID = worker.leaseID && leaseIDPattern.matchString receipt.leaseID &&
      receipt.fence = worker.fence && receipt.fence > 0 &&
      receipt.contractDigest = taskAcceptanceContractDigest (some contract) && receipt.clean &&
      receipt.commitsAheadBase ≥ contract.minimumCommitsAheadPerWorker &&
      receipt.commitsAheadBase ≤ 10000 &&
      receipt.changedPathCount ≥ contract.minimumChangedPathsPerWorker &&
      receipt.changedPathCount ≤ 10000 &&
      ((receipt.headCommit = receipt.baseCommit : Bool) == (receipt.commitsAheadBase = 0 : Bool)) &&
      receipt.recordedAt ≠ zeroTime

def validTaskTestAcceptanceReceipt (task : TaskGroup) (worker : TaskWorker)
    (receipt : TaskTestAcceptanceReceipt) : Bool :=
  match task.testAcceptanceContract with
  | none => false
  | some contract =>
    accepted (validateTaskTestAcceptanceContract (some contract)) && receipt.version = 1 &&
      receipt.taskID = task.id && receipt.ordinal = worker.ordinal &&
      receipt.jobID = worker.jobID && receipt.worktreeID = worker.worktreeID &&
      receipt.workspaceID = worker.workspaceID && worker.worktreeID ≠ "" &&
      worker.workspaceID ≠ "" && receipt.baseCommit = task.baseCommit &&
      taskCommitPattern.matchString receipt.headCommit &&
      receipt.headCommit = Text.lowerText receipt.headCommit && receipt.branch = taskBranch worker &&
      worker.state = .succeeded && receipt.leaseID = worker.leaseID &&
      leaseIDPattern.matchString receipt.leaseID && receipt.fence = worker.fence &&
      receipt.fence > 0 && payloadHashPattern.matchString receipt.contentDigest &&
      receipt.profileID = contract.profileID && receipt.profileDigest = contract.profileDigest &&
      receipt.contractDigest = taskTestAcceptanceContractDigest (some contract) &&
      taskOperationPattern.matchString receipt.edgeOperationID &&
      receipt.edgeResult = taskTestEdgeResultPassed && receipt.recordedAt ≠ zeroTime

def taskObjectiveCriteriaSatisfied (contract : Option TaskObjectiveContract) (clean : Bool)
    (ahead changed : Int) : Bool :=
  match contract with
  | none => false
  | some c =>
    accepted (validateTaskObjectiveContract (some c)) && (!c.requireClean || clean) &&
      ahead ≥ c.minimumCommitsAheadPerWorker && ahead ≤ 10000 &&
      changed ≥ c.minimumChangedPathsPerWorker && changed ≤ 10000

def validTaskObjectiveReceipt (task : TaskGroup) (worker : TaskWorker)
    (receipt : TaskObjectiveReceipt) : Bool :=
  match worker.testAcceptanceReceipt with
  | none => false
  | some test =>
    receipt.version = 1 && receipt.taskID = task.id && receipt.ordinal = worker.ordinal &&
      worker.state = .succeeded && validTaskTestAcceptanceReceipt task worker test &&
      receipt.contractDigest ≠ "" &&
      receipt.contractDigest = taskObjectiveContractDigest task worker &&
      receipt.testReceiptDigest = taskTestReceiptDigest test &&
      receipt.headCommit = test.headCommit &&
      taskObjectiveCriteriaSatisfied task.objectiveContract receipt.clean receipt.commitsAheadBase
        receipt.changedPathCount &&
      ((receipt.headCommit = task.baseCommit : Bool) == (receipt.commitsAheadBase = 0 : Bool)) &&
      receipt.recordedAt ≠ zeroTime && task.createdAt ≤ receipt.recordedAt

def validTaskIntegrationReceipt (task : TaskGroup) (receipt : TaskIntegrationReceipt) : Bool :=
  match task.integrationContract, task.workers with
  | some contract, [worker] =>
    match worker.objectiveReceipt with
    | none => false
    | some objective =>
      receipt.version = 1 && receipt.taskID = task.id &&
        receipt.contractDigest = integrationDigest (Encode.integrationContract contract) &&
        receipt.sourcesDigest = integrationDigest (Encode.pins task.integrationPins) &&
        receipt.objectiveReceiptDigest = integrationDigest (Encode.objectiveReceipt objective) &&
        receipt.headCommit = objective.headCommit && objective.clean &&
        receipt.recordedAt ≠ zeroTime && task.createdAt ≤ receipt.recordedAt
  | _, _ => false

/-- The fields that `ValidateTaskIntegrationSourceBindings` reads of a task or a specification. -/
structure IntegrationNeed where
  project : String
  target : String
  baseCommit : String
  contract : Option TaskIntegrationContract
  pins : Slice TaskIntegrationSourcePin

def TaskSpec.need (spec : TaskSpec) : IntegrationNeed :=
  ⟨spec.project, spec.target, spec.baseCommit, spec.integrationContract, spec.integrationPins⟩

def TaskGroup.need (task : TaskGroup) : IntegrationNeed :=
  ⟨task.project, task.target, task.baseCommit, task.integrationContract, task.integrationPins⟩

/-- The pins from left to right against the source's workers. -/
def checkPins (source : TaskGroup) : List TaskIntegrationSourcePin → Except String Unit
  | [] => .ok ()
  | p :: rest => do
    reject (p.ordinal < 0) "workqueue: integration source worker unavailable"
    let w ← required "workqueue: integration source worker unavailable"
      source.workers[p.ordinal.toNat]?
    reject (w.state ≠ .succeeded || w.worktreeCleaned || w.worktreeID = "" || w.runtimeID = "" ||
      p ≠ taskIntegrationPin source w p.ordinal p.headCommit)
      "workqueue: integration source identity or receipt changed"
    checkPins source rest

def validateTaskIntegrationSourceBindings (need : IntegrationNeed) (source : TaskGroup) : Except String Unit :=
  match need.contract with
  | none => .ok ()
  | some contract => do
    reject (source.integrationContract.isSome || source.id ≠ contract.sourceTaskID ||
      source.state ≠ .completed || source.project ≠ need.project ||
      source.target ≠ need.target || source.baseCommit ≠ need.baseCommit)
      "workqueue: integration source task changed"
    checkPins source need.pins.items

def validState : State → Bool
  | .blocked | .queued | .leased | .succeeded | .failed | .cancelled => true

/-- The worker clauses of `validTask`, in the order in which they reject. -/
def validTaskWorker (task : TaskGroup) (ordinal : Nat) (worker : TaskWorker) : Bool :=
  let succeeded := worker.state = .succeeded
  let cleaned := worker.worktreeCleaned
  !(worker.ordinal ≠ ordinal || !jobIDPattern.matchString worker.jobID || !validState worker.state ||
    (worker.leaseID ≠ "" && (worker.fence = 0 || !leaseIDPattern.matchString worker.leaseID)) ||
    (worker.state = .leased &&
      (worker.fence = 0 || worker.leaseID = "" || !holderPattern.matchString worker.leaseHolder)) ||
    (worker.operationID ≠ "" && !taskOperationPattern.matchString worker.operationID) ||
    (worker.worktreeID ≠ "" && !taskWorktreePattern.matchString worker.worktreeID) ||
    (worker.workspaceID ≠ "" && !taskWorkspacePattern.matchString worker.workspaceID) ||
    (worker.runtimeID ≠ "" && !taskRuntimePattern.matchString worker.runtimeID) ||
    worker.updatedAt = zeroTime || worker.updatedAt < task.createdAt) &&
  !(cleaned && (worker.worktreeID = "" || !terminal worker.state)) &&
  !(cleaned && task.acceptanceContract.isSome && succeeded && worker.acceptanceReceipt.isNone) &&
  !(cleaned && task.testAcceptanceContract.isSome && succeeded && worker.testAcceptanceReceipt.isNone) &&
  !(worker.acceptanceReceipt.any fun r => !validTaskAcceptanceReceipt task worker r) &&
  !(worker.testAcceptanceReceipt.any fun r => !validTaskTestAcceptanceReceipt task worker r) &&
  !(worker.objectiveReceipt.any fun r => !validTaskObjectiveReceipt task worker r) &&
  !(cleaned && task.objectiveContract.isSome && succeeded && worker.objectiveReceipt.isNone) &&
  !(cleaned && task.integrationContract.isSome && succeeded && task.integrationReceipt.isNone)

/-- The specification a task group is checked against when it is read back. -/
def TaskGroup.spec (task : TaskGroup) : TaskSpec where
  idempotencyKey := task.idempotencyKey
  project := task.project
  target := task.target
  baseCommit := task.baseCommit
  goalHash := task.goalHash
  acceptanceContract := task.acceptanceContract
  testAcceptanceContract := task.testAcceptanceContract
  objectiveContract := task.objectiveContract
  integrationContract := task.integrationContract
  integrationPins := task.integrationPins
  workerGoalHashes := task.workers.map TaskWorker.goalHash
  workerGoalRefs := task.workers.map TaskWorker.goalRef
  pool := task.pool
  profile := task.profile
  workerCount := task.workerCount
  executionTimeoutSeconds := task.executionTimeoutSeconds

def validTask (task : TaskGroup) : Bool :=
  taskIDPattern.matchString task.id && accepted (validateTaskSpec task.spec) &&
    task.createdAt ≠ zeroTime && task.createdAt ≤ task.updatedAt &&
    validTaskIntegrationSpec task.spec &&
    (task.integrationReceipt.all fun receipt => validTaskIntegrationReceipt task receipt) &&
    task.workers.zipIdx.all fun (worker, ordinal) => validTaskWorker task ordinal worker

def deriveTaskState (workers : List TaskWorker) : TaskState :=
  if workers.all fun w => w.state = .succeeded then .completed
  else if workers.any fun w => w.state = .failed then .failed
  else if (workers.all fun w => terminal w.state) && workers.any fun w => w.state = .cancelled then
    .cancelled
  else if workers.any TaskWorker.cancelRequested then .cancelling
  else if workers.any fun w => w.state = .leased || w.attempt > 0 || terminal w.state then .running
  else .queued

def taskMatchesSpec (task : TaskGroup) (spec : TaskSpec) : Bool :=
  task.idempotencyKey = spec.idempotencyKey && task.project = spec.project &&
    task.target = spec.target && task.baseCommit = spec.baseCommit && task.goalHash = spec.goalHash &&
    task.pool = spec.pool && task.profile = spec.profile && task.workerCount = spec.workerCount &&
    task.executionTimeoutSeconds = spec.executionTimeoutSeconds &&
    task.acceptanceContract = spec.acceptanceContract &&
    task.testAcceptanceContract = spec.testAcceptanceContract &&
    task.objectiveContract = spec.objectiveContract &&
    task.integrationContract = spec.integrationContract &&
    integrationDigest (Encode.pins task.integrationPins) =
      integrationDigest (Encode.pins spec.integrationPins) &&
    (task.workers.zip spec.workerGoalHashes).all fun (worker, hash) => worker.goalHash = hash

/-- The contract columns: version, minimum commits, minimum changed paths, profile, digest. -/
def taskAcceptanceColumns (gitContract : Option TaskAcceptanceContract)
    (testContract : Option TaskTestAcceptanceContract) : Int × Int × Int × String × String :=
  match testContract, gitContract with
  | some test, _ => (2, 0, 0, test.profileID, test.profileDigest)
  | none, some git =>
    (git.version, git.minimumCommitsAheadPerWorker, git.minimumChangedPathsPerWorker, "", "")
  | none, none => (0, 0, 0, "", "")

def sameTaskAcceptanceReceipt (left right : TaskAcceptanceReceipt) : Bool :=
  { left with recordedAt := zeroTime } = { right with recordedAt := zeroTime }

def sameTaskTestAcceptanceReceipt (left right : TaskTestAcceptanceReceipt) : Bool :=
  { left with recordedAt := zeroTime } = { right with recordedAt := zeroTime }

end Aeontra.Workqueue
