import Aeontra.Workqueue.Jobs

/-!
Reading task groups back from their tables, and creating them.
-/

namespace Aeontra.Workqueue

open Library

/-- `decodeTaskObjectiveRecord` of a text the store has encoded: only its length can fail. -/
def decodeTaskObjectiveRecord (record : String) : Except String Unit :=
  reject (byteLength record > 4096) "workqueue: objective record is corrupt"

def decodeIntegration (row : TaskGroupRow) : Except String (Slice TaskIntegrationSourcePin) :=
  match row.integrationContract with
  | some contract => do
    decodeTaskObjectiveRecord (Encode.integrationContract contract)
    reject (row.integrationSourceTask ≠ contract.sourceTaskID)
      "workqueue: integration source index conflicts"
    let pins ← required "workqueue: objective record is corrupt" row.integrationPins
    decodeTaskObjectiveRecord (Encode.pins pins)
    pure pins
  | none => do
    reject (row.integrationPins.isSome || row.integrationReceipt.isSome ||
      row.integrationSourceTask ≠ "") "workqueue: orphan integration evidence"
    pure none

def decodeIntegrationReceipt (row : TaskGroupRow) : Except String Unit :=
  match row.integrationReceipt with
  | none => .ok ()
  | some receipt => decodeTaskObjectiveRecord (Encode.integrationReceipt receipt)

/-- The acceptance contracts that the discriminator column selects. -/
def decodeAcceptance (row : TaskGroupRow) :
    Except String (Option TaskAcceptanceContract × Option TaskTestAcceptanceContract) :=
  if row.acceptanceContractVersion = 0 then do
    reject (row.acceptanceMinCommitsAhead ≠ 0 || row.acceptanceMinChangedPaths ≠ 0 ||
      row.testProfileID ≠ "" || row.testProfileDigest ≠ "")
      "workqueue: task acceptance contract is invalid"
    pure (none, none)
  else if row.acceptanceContractVersion = 1 then do
    reject (row.testProfileID ≠ "" || row.testProfileDigest ≠ "")
      "workqueue: task acceptance contract is invalid"
    pure (some ⟨1, row.acceptanceMinCommitsAhead, row.acceptanceMinChangedPaths⟩, none)
  else if row.acceptanceContractVersion = 2 then do
    reject (row.acceptanceMinCommitsAhead ≠ 0 || row.acceptanceMinChangedPaths ≠ 0)
      "workqueue: task test acceptance contract is invalid"
    pure (none, some ⟨1, row.testProfileID, row.testProfileDigest⟩)
  else .error "workqueue: task acceptance contract is unsupported"

/-- The contract's decoder checks the contract itself as well. -/
def decodeObjective (row : TaskGroupRow) : Except String Unit :=
  match row.objectiveContract with
  | none => .ok ()
  | some contract => do
    decodeTaskObjectiveRecord (Encode.objectiveContract contract)
    orFail "workqueue: objective record is corrupt" (validateTaskObjectiveContract (some contract))

/-- The workers of a task joined with their jobs, by ordinal. -/
def DB.workersOf (db : DB) (taskID : String) : List (TaskWorkerRow × JobRow) :=
  ((db.taskWorkers.rows.filter fun w => w.taskID = taskID).filterMap fun w =>
    (db.jobs.find w.jobID).map fun job => (w, job)).insertionSort
      fun left right => left.1.ordinal ≤ right.1.ordinal

def assembleWorker (w : TaskWorkerRow) (job : JobRow) : TaskWorker where
  ordinal := w.ordinal
  jobID := job.id
  state := job.state
  reason := job.reason
  cancelRequested := job.cancelRequested
  attempt := job.attempt
  leaseID := job.leaseID.getD ""
  fence := job.fence
  leaseExpiresAt :=
    match job.leaseUntil with
    | some t => if 0 < t.time then t.time else zeroTime
    | none => zeroTime
  leaseHolder := job.leaseHolder.getD ""
  operationID := w.operationID
  worktreeID := w.worktreeID
  workspaceID := w.workspaceID
  runtimeID := w.runtimeID
  worktreeCleaned := w.worktreeCleaned
  acceptanceReceipt := w.acceptanceReceipt
  testAcceptanceReceipt := w.testAcceptanceReceipt
  objectiveReceipt := w.objectiveReceipt
  summary := job.summary.getD ""
  goalHash := job.payloadHash
  goalRef := w.goalRef
  updatedAt := job.updatedAt.time

def decodeObjectiveReceipt (w : TaskWorkerRow) : Except String Unit :=
  match w.objectiveReceipt with
  | none => .ok ()
  | some receipt => decodeTaskObjectiveRecord (Encode.objectiveReceipt receipt)

/-- The latest change of the group's row and of its workers' jobs. -/
def latest (updatedAt : Time) (workers : List TaskWorker) : Time :=
  workers.foldl (fun t w => if t < w.updatedAt then w.updatedAt else t) updatedAt

def assembleTask (row : TaskGroupRow) (acceptance : Option TaskAcceptanceContract)
    (test : Option TaskTestAcceptanceContract) (pins : Slice TaskIntegrationSourcePin)
    (workers : List TaskWorker) : TaskGroup where
  id := row.id
  idempotencyKey := row.idempotencyKey
  project := row.project
  target := row.target
  baseCommit := row.baseCommit
  goalHash := row.goalHash
  pool := row.pool
  profile := row.profile
  workerCount := row.workerCount
  executionTimeoutSeconds := row.executionTimeoutSeconds
  acceptanceContract := acceptance
  testAcceptanceContract := test
  objectiveContract := row.objectiveContract
  integrationContract := row.integrationContract
  integrationPins := pins
  integrationReceipt := row.integrationReceipt
  state := deriveTaskState workers
  workers := workers
  createdAt := row.createdAt.time
  updatedAt := latest row.updatedAt.time workers

def DB.readTask (db : DB) (row : TaskGroupRow) : Except String TaskGroup := do
  let pins ← decodeIntegration row
  decodeIntegrationReceipt row
  let (acceptance, test) ← decodeAcceptance row
  decodeObjective row
  let joined := db.workersOf row.id
  let _ ← joined.mapM fun (w, _) => decodeObjectiveReceipt w
  let task := assembleTask row acceptance test pins (joined.map fun (w, job) => assembleWorker w job)
  reject ((task.workers.length : Int) ≠ task.workerCount) "workqueue: task state is invalid"
  reject (!validTask task) "workqueue: task state is invalid"
  pure task

def DB.taskByID (db : DB) (taskID : String) : Except String (Option TaskGroup) :=
  match db.taskGroups.find taskID with
  | none => .ok none
  | some row => (db.readTask row).map some

/-- The sources of an integration, read in the same transaction. -/
def validateTaskIntegrationSourcesTx (db : DB) (need : IntegrationNeed) : Except String Unit :=
  match need.contract with
  | none => .ok ()
  | some contract => do
    let found ← orFail "workqueue: integration source task unavailable"
      (db.taskByID contract.sourceTaskID)
    let source ← required "workqueue: integration source task unavailable" found
    validateTaskIntegrationSourceBindings need source

def taskGroupRow (spec : TaskSpec) (taskID : String) (now : UnixNano) : TaskGroupRow :=
  let (version, commits, paths, profileID, profileDigest) :=
    taskAcceptanceColumns spec.acceptanceContract spec.testAcceptanceContract
  { id := taskID
    idempotencyKey := spec.idempotencyKey
    project := spec.project
    target := spec.target
    baseCommit := spec.baseCommit
    goalHash := spec.goalHash
    pool := spec.pool
    profile := spec.profile
    workerCount := spec.workerCount
    executionTimeoutSeconds := spec.executionTimeoutSeconds
    acceptanceContractVersion := version
    acceptanceMinCommitsAhead := commits
    acceptanceMinChangedPaths := paths
    testProfileID := profileID
    testProfileDigest := profileDigest
    objectiveContract := spec.objectiveContract
    integrationContract := spec.integrationContract
    integrationSourceTask := (spec.integrationContract.map fun c => c.sourceTaskID).getD ""
    integrationPins := spec.integrationContract.map fun _ => spec.integrationPins
    integrationReceipt := none
    createdAt := now
    updatedAt := now }

def workerJobRow (spec : TaskSpec) (jobID : String) (ordinal : Nat) (now : UnixNano) : JobRow :=
  admittedRow ⟨spec.idempotencyKey ++ ":worker:" ++ toString ordinal, spec.project, spec.pool,
    spec.profile, spec.workerGoalHashes.getD ordinal "", []⟩ jobID .queued .none now

def taskWorkerRow (spec : TaskSpec) (taskID jobID : String) (ordinal : Nat) : TaskWorkerRow where
  taskID := taskID
  ordinal := ordinal
  jobID := jobID
  goalRef := spec.workerGoalRefs.getD ordinal ""
  operationID := ""
  worktreeID := ""
  workspaceID := ""
  runtimeID := ""
  acceptanceReceipt := none
  worktreeCleaned := false
  testAcceptanceReceipt := none
  objectiveReceipt := none

def insertTaskWorker (spec : TaskSpec) (taskID : String) (draws : Nat → Draw) (now : UnixNano)
    (db : DB) (ordinal : Nat) : Except String DB := do
  let jobID := randomID "wj_" (draws ordinal)
  let job := workerJobRow spec jobID ordinal now
  reject (!idempotencyPattern.matchString job.idempotencyKey)
    "workqueue: task worker idempotency is invalid"
  let jobs ← required "workqueue: task worker persistence failed" (db.jobs.insert job)
  let workers ← required "workqueue: task worker binding failed"
    (db.taskWorkers.insert (taskWorkerRow spec taskID jobID ordinal))
  pure { db with jobs := jobs, taskWorkers := workers }

def createTaskTx (config : Config) (spec : TaskSpec) (draw : Draw) (draws : Nat → Draw)
    (now : UnixNano) (db : DB) : Except String (Except String (TaskGroup × Bool) × DB) := do
  let spec := normalizeTaskSpec spec
  orFail "workqueue: task specification is invalid" (validateTaskSpec spec)
  match db.taskGroups.findUnique spec.idempotencyKey with
  | some row =>
    let found ← orFail "workqueue: task unavailable" (db.taskByID row.id)
    let task ← required "workqueue: task unavailable" found
    reject (!taskMatchesSpec task spec) "workqueue: task idempotency key conflicts"
    pure (.ok (task, false), db)
  | none =>
    reject ((db.activeJobs : Int) + spec.workerCount > config.maxJobs ||
      (db.activeJobsIn spec.project : Int) + spec.workerCount > config.maxJobsPerWorkspace)
      "workqueue: task queue bound reached"
    let taskID := randomID "tg_" draw
    validateTaskIntegrationSourcesTx db spec.need
    let groups ← required "workqueue: task persistence failed"
      (db.taskGroups.insert (taskGroupRow spec taskID now))
    let db ← (List.range spec.workerCount.toNat).foldlM (insertTaskWorker spec taskID draws now)
      { db with taskGroups := groups }
    let reply := do
      let found ← orFail "workqueue: created task unavailable" (db.taskByID taskID)
      let task ← required "workqueue: created task unavailable" found
      pure (task, true)
    pure (reply, db)

def Store.createTask (s : Store) (spec : TaskSpec) (draw : Draw) (draws : Nat → Draw)
    (now : UnixNano) : Except String (TaskGroup × Bool) × Store :=
  s.transact (createTaskTx s.config spec draw draws now)

def Store.task (s : Store) (taskID : String) : Except String (Option TaskGroup) := do
  reject (!taskIDPattern.matchString taskID) "workqueue: task id is invalid"
  s.db.taskByID taskID

def DB.activeGroup (db : DB) (row : TaskGroupRow) : Bool :=
  (db.workersOf row.id).any fun (_, job) => active job.state

end Aeontra.Workqueue
